import Gyza.Lib.Segments
import Gyza.Tier3Request

/-! Peer ids taken from multiaddrs (`_extract_peer_id_from_multiaddr` of
`gyza/network/attestation_adapter.py`).

A multiaddr is a sequence of components, `/name` or `/name/value`, and may end in a
path. Behind a relay it names two peers: the relay first, and last the peer itself. -/

namespace Gyza

structure AddrComponent where
  name : String
  value : Option String
  name_clean : '/' ∉ name.toList
  value_clean : ∀ text ∈ value, '/' ∉ text.toList
  p2p_valued : name = "p2p" → value.isSome = true

/-- A path is the name of its protocol and what lies between its slashes. -/
structure Multiaddr where
  components : List AddrComponent
  path : List String
  path_clean : ∀ segment ∈ path, '/' ∉ segment.toList
  path_named : path.head? ≠ some "p2p"

def AddrComponent.segments (component : AddrComponent) : List String :=
  component.name :: component.value.toList

def AddrComponent.peerId (component : AddrComponent) : Option String :=
  if component.name = "p2p" then component.value else none

namespace Multiaddr

def segments (addr : Multiaddr) : List String :=
  addr.components.flatMap AddrComponent.segments ++ addr.path

def text (addr : Multiaddr) : String :=
  String.ofList (Segments.join '/' (addr.segments.map String.toList))

/-- The ids of its `/p2p/` components. -/
def peerIds (addr : Multiaddr) : List String := addr.components.filterMap AddrComponent.peerId

end Multiaddr

/-- The last `/p2p/` component of the first address that has one. -/
def finalPeerId (addrs : List Multiaddr) : Option String :=
  addrs.findSome? fun addr => addr.peerIds.getLast?

def firstPeerId (addrs : List Multiaddr) : Option String :=
  addrs.findSome? fun addr => addr.peerIds.head?

/-- What follows a value or a part of a path that is the text `p2p`, before any `/p2p/`
component. -/
def strayOf : List AddrComponent → List String → Option String
  | [], path => Segments.following "p2p" path
  | component :: rest, path =>
      if component.name = "p2p" then none
      else if component.value = some "p2p" then
        (rest.flatMap AddrComponent.segments ++ path).head?
      else strayOf rest path

/-- The same over the addresses up to the first that has a `/p2p/` component. -/
def strayMention : List Multiaddr → Option String
  | [] => none
  | addr :: rest =>
      if addr.peerIds = [] then (strayOf addr.components addr.path).or (strayMention rest)
      else strayOf addr.components addr.path

/-- Nothing but a component reads `/p2p/`, or it is followed by the same id, and the first
address with such components starts and ends with the same id. -/
def DirectlyAddressed (addrs : List Multiaddr) : Prop :=
  match strayMention addrs with
  | some segment => finalPeerId addrs = some segment
  | none => firstPeerId addrs = finalPeerId addrs

theorem Multiaddr.segments_clean (addr : Multiaddr) :
    ∀ segment ∈ addr.segments, '/' ∉ segment.toList := by
  intro segment member
  rcases List.mem_append.mp member with inside | inside
  · obtain ⟨component, -, named⟩ := List.mem_flatMap.mp inside
    rcases List.mem_cons.mp named with rfl | valued
    · exact component.name_clean
    · exact component.value_clean segment (Option.mem_toList.mp valued)
  · exact addr.path_clean segment inside

theorem afterP2p_eq (text : List Char) : afterP2p text = Segments.after "/p2p/".toList text := by
  induction text with
  | nil => rfl
  | cons c rest ih => rw [afterP2p, Segments.after, ih]; rfl

/-- The id taken from one address is what follows its first segment `p2p`. -/
theorem extract_text (addr : Multiaddr) :
    (afterP2p addr.text.toList).map (fun rest => String.ofList (rest.takeWhile (· ≠ '/'))) =
      Segments.following "p2p" addr.segments := by
  have injective : Function.Injective String.toList := fun _ _ => String.toList_injective
  have clean : '/' ∉ "p2p".toList := by decide
  have cleans : ∀ segment ∈ addr.segments.map String.toList, '/' ∉ segment := by
    intro segment member
    obtain ⟨text, inside, rfl⟩ := List.mem_map.mp member
    exact addr.segments_clean text inside
  have found := Segments.after_join clean cleans
  rw [Segments.following_map injective] at found
  have opened : "/p2p/".toList = '/' :: ("p2p".toList ++ ['/']) := by decide
  have texts := congrArg (Option.map String.ofList) found
  rw [Option.map_map, Option.map_map, ← opened, ← afterP2p_eq] at texts
  rw [Multiaddr.text, String.toList_ofList]
  calc
    _ = (Segments.following "p2p" addr.segments).map (String.ofList ∘ String.toList) := texts
    _ = Segments.following "p2p" addr.segments := by simp [Function.comp_def]

/-- The first segment `p2p` is a stray one, or the name of the first `/p2p/` component. -/
theorem following_segments (components : List AddrComponent) (path : List String) :
    Segments.following "p2p" (components.flatMap AddrComponent.segments ++ path) =
      (strayOf components path).or (components.filterMap AddrComponent.peerId).head? := by
  induction components with
  | nil => simp [strayOf]
  | cons component rest ih =>
      rw [List.flatMap_cons, List.append_assoc, strayOf, List.filterMap_cons]
      by_cases isPeer : component.name = "p2p"
      · obtain ⟨id, valued⟩ := Option.isSome_iff_exists.mp (component.p2p_valued isPeer)
        simp [AddrComponent.segments, AddrComponent.peerId, isPeer, valued, Segments.following]
      · rw [if_neg isPeer, AddrComponent.peerId, if_neg isPeer]
        cases valued : component.value with
        | none =>
            rw [if_neg (by simp), ← ih]
            simp [AddrComponent.segments, valued, Segments.following, isPeer]
        | some text =>
            by_cases stray : text = "p2p"
            · subst stray
              simp only [AddrComponent.segments, valued, Option.toList_some, List.cons_append,
                List.nil_append, Segments.following, if_neg isPeer, if_true]
              cases rest with
              | nil => simp [List.filterMap]
              | cons next others => rfl
            · rw [if_neg (by simpa using stray), ← ih]
              simp [AddrComponent.segments, valued, Segments.following, isPeer, stray]

theorem extractPeerId_eq (addrs : List Multiaddr) :
    extractPeerIdFromMultiaddr (addrs.map Multiaddr.text) =
      (strayMention addrs).or (firstPeerId addrs) := by
  rw [extractPeerIdFromMultiaddr, List.findSome?_map]
  induction addrs with
  | nil => rfl
  | cons addr rest ih =>
      have taken := extract_text addr
      rw [Multiaddr.segments, following_segments] at taken
      rw [List.findSome?_cons, Function.comp_apply, taken, ih, strayMention, firstPeerId,
        firstPeerId, List.findSome?_cons, Multiaddr.peerIds]
      cases strayOf addr.components addr.path with
      | some segment => split_ifs <;> simp
      | none =>
          cases addr.components.filterMap AddrComponent.peerId with
          | nil => simp
          | cons id others => simp

theorem direct_iff (addrs : List Multiaddr) :
    (strayMention addrs).or (firstPeerId addrs) = finalPeerId addrs ↔
      DirectlyAddressed addrs := by
  rw [DirectlyAddressed]
  cases strayMention addrs with
  | none => rw [Option.none_or]
  | some segment => rw [Option.some_or, eq_comm]

theorem final_peer_extracted_iff (addrs : List Multiaddr) :
    extractPeerIdFromMultiaddr (addrs.map Multiaddr.text) = finalPeerId addrs ↔
      DirectlyAddressed addrs := by
  rw [extractPeerId_eq, direct_iff]

/-- The id is extracted from an advertisement of another compositor. -/
def OfferedBy (self : String) (ads : List ValidatorAd) (peerId : String) : Prop :=
  ∃ ad ∈ ads, ad.compositorPubkey ≠ self ∧
    extractPeerIdFromMultiaddr ad.multiaddrs = some peerId

theorem OfferedBy.tail {self peerId : String} {ads : List ValidatorAd} (ad : ValidatorAd)
    (offered : OfferedBy self ads peerId) : OfferedBy self (ad :: ads) peerId := by
  obtain ⟨other, listed, foreign, extracted⟩ := offered
  exact ⟨other, List.mem_cons_of_mem ad listed, foreign, extracted⟩

theorem mem_discoverLoop {n : Int} {self : String} {ads : List ValidatorAd}
    {seen found : List String} {peerId : String}
    (member : peerId ∈ discoverLoop n self seen found ads) :
    peerId ∈ found ∨ OfferedBy self ads peerId := by
  induction ads generalizing seen found with
  | nil => exact Or.inl member
  | cons ad rest ih =>
      rw [discoverLoop] at member
      split at member
      · exact (ih member).imp_right (OfferedBy.tail ad)
      · rename_i fresh
        obtain ⟨foreign, -⟩ := not_or.mp fresh
        split at member
        · exact (ih member).imp_right (OfferedBy.tail ad)
        · rename_i id extracted
          have grown (inside : peerId ∈ found ++ [id]) :
              peerId ∈ found ∨ OfferedBy self (ad :: rest) peerId := by
            obtain old | new := List.mem_append.mp inside
            · exact Or.inl old
            · cases List.mem_singleton.mp new
              exact Or.inr ⟨ad, List.mem_cons_self, foreign, extracted⟩
          dsimp only at member
          split at member
          · exact grown member
          · obtain inside | offered := ih member
            · exact grown inside
            · exact Or.inr (offered.tail ad)

/-- With direct addresses discovery contacts the advertised peers themselves. -/
theorem discovered_advertised {n : Int} {self : String} {ads : List ValidatorAd}
    (direct : ∀ ad ∈ ads, ∃ addrs : List Multiaddr, ad.multiaddrs = addrs.map Multiaddr.text ∧
      DirectlyAddressed addrs) {peerId : String}
    (contacted : peerId ∈ discoverTier3Validators n self ads) :
    ∃ ad ∈ ads, ad.compositorPubkey ≠ self ∧ ∃ addrs : List Multiaddr,
      ad.multiaddrs = addrs.map Multiaddr.text ∧ finalPeerId addrs = some peerId := by
  obtain nothing | ⟨ad, listed, foreign, extracted⟩ := mem_discoverLoop contacted
  · cases nothing
  · obtain ⟨addrs, texts, directly⟩ := direct ad listed
    refine ⟨ad, listed, foreign, addrs, texts, ?_⟩
    rw [← (direct_iff addrs).mpr directly, ← extractPeerId_eq, ← texts]
    exact extracted

namespace Relayed

/-- The address of a validator behind a relay. -/
def addr : Multiaddr where
  components :=
    [⟨"ip4", some "203.0.113.7", by decide, by decide, by decide⟩,
      ⟨"tcp", some "4001", by decide, by decide, by decide⟩,
      ⟨"p2p", some "QmRelay", by decide, by decide, by decide⟩,
      ⟨"p2p-circuit", none, by decide, by decide, by decide⟩,
      ⟨"p2p", some "QmValidator", by decide, by decide, by decide⟩]
  path := []
  path_clean := by decide
  path_named := by decide

end Relayed

/-- Discovery takes the relay for the validator. -/
theorem relay_extracted :
    finalPeerId [Relayed.addr] = some "QmValidator" ∧
      extractPeerIdFromMultiaddr [Relayed.addr.text] = some "QmRelay" ∧
      discoverTier3Validators 1 "self" [⟨"validator", [Relayed.addr.text]⟩] = ["QmRelay"] := by
  decide +kernel

end Gyza
