import LatticeLedger.Certificate.Builder
import LatticeLedger.Ordered.Set
import LatticeLedger.Proofs.Lattice.Conversions
import LatticeLedger.Proofs.Symmetry.Orbit
import Mathlib.Data.List.Induction

/-!
# A certificate contains exactly what was chosen

A builder may be given anchors and Gray indices any number of times; only the last choice of each
kind counts, and of that only which numbers occur in it. Choosing fails for numbers out of range and
for no anchor at all. Once every choice is accepted, building cannot fail: the checks on the way
pass at every anchor and every index, and what they let through are the chosen numbers in ascending
order.
-/

namespace LatticeLedger

open Symmetry

namespace CertificateBuilder

/-! ### Choosing -/

/-- A choice made on a builder. -/
inductive Choice
  | anchors (numbers : List Nat)
  | samples (indices : List Nat)

namespace Choice

/-- The builder after a choice. -/
def on : Choice → CertificateBuilder → Except CertificateError CertificateBuilder
  | anchors numbers, builder => builder.withAnchors numbers
  | samples indices, builder => builder.withSamples indices

/-- The anchors of a choice, if it is one of anchors. -/
def anchors? : Choice → Option (List Nat)
  | anchors numbers => some numbers
  | samples _ => none

/-- The Gray indices of a choice, if it is one of them. -/
def samples? : Choice → Option (List Nat)
  | anchors _ => none
  | samples indices => some indices

end Choice

/-- The builder after several choices, made on a fresh one. -/
def ofChoices (choices : List Choice) : Except CertificateError CertificateBuilder :=
  choices.foldlM (fun builder choice => choice.on builder) {}

/-- The anchors chosen last, or all of them. -/
def chosenAnchors (choices : List Choice) : List Nat :=
  (choices.filterMap Choice.anchors?).getLastD (List.range anchorCount)

/-- The Gray indices chosen last, or the standard ones. -/
def chosenSamples (choices : List Choice) : List Nat :=
  (choices.filterMap Choice.samples?).getLastD [0, 1, 2, 3, 1024, 2047]

variable {builder changed other : CertificateBuilder} {numbers indices : List Nat}
  {error : CertificateError}

/-- Anchors are refused for the first number that is none, or if there is no anchor at all. -/
theorem withAnchors_eq_error_iff :
    builder.withAnchors numbers = .error error ↔
      (∃ got, numbers.find? (anchorCount ≤ ·) = some got ∧
        error = .refused (.outOfRange .anchor got anchorCount)) ∨
      numbers = [] ∧ error = .fault .noAnchors := by
  rw [withAnchors]
  constructor
  · intro h
    rcases bind_eq_error_iff.1 h with hrange | ⟨chosen, hchosen, h⟩
    · obtain ⟨refusal, hrefusal, rfl⟩ := mapError_eq_error_iff.1 hrange
      obtain ⟨got, hgot, rfl⟩ := mapM_checkBelow_eq_error_iff.1 hrefusal
      exact .inl ⟨got, hgot, rfl⟩
    have hnumbers := mapM_checkBelow_eq_ok (mapError_eq_ok_iff.1 hchosen)
    rcases bind_eq_error_iff.1 h with hrequired | ⟨_, -, h⟩
    · obtain ⟨hempty, rfl⟩ := require_eq_error_iff.1 hrequired
      have hnil : chosen = [] := List.isEmpty_iff.1 (Decidable.not_not.1 hempty)
      exact .inr ⟨by rw [← hnumbers, hnil, List.map_nil], rfl⟩
    · cases h
  · rintro (⟨got, hgot, rfl⟩ | ⟨rfl, rfl⟩)
    · have hrefusal : numbers.mapM (checkBelow .anchor anchorCount) = .error _ :=
        mapM_checkBelow_eq_error_iff.2 ⟨got, hgot, rfl⟩
      exact bind_eq_error_iff.2 (.inl (mapError_eq_error_iff.2 ⟨_, hrefusal, rfl⟩))
    · rfl

/-- Accepted anchors are kept in ascending order, each once; there is at least one. -/
theorem of_withAnchors_eq_ok (h : builder.withAnchors numbers = .ok changed) :
    changed.anchors.map (·.val) = (OrderedSet.ofList numbers).toList ∧ changed.anchors ≠ [] ∧
      changed.samples = builder.samples := by
  obtain ⟨chosen, hchosen, h⟩ := bind_eq_ok_iff.1 h
  obtain ⟨_, hsome, h⟩ := bind_eq_ok_iff.1 h
  have hnumbers := mapM_checkBelow_eq_ok (mapError_eq_ok_iff.1 hchosen)
  have hsome := require_eq_ok_iff.1 hsome
  obtain rfl := Except.ok.inj h
  have hmem (anchor : Anchor) :
      anchor ∈ (List.finRange anchorCount).filter (chosen.contains ·) ↔ anchor ∈ chosen := by
    simp
  refine ⟨?_, ?_, rfl⟩
  · refine OrderedSet.eq_toList_of_ascending ?_ fun n => ?_
    · exact List.pairwise_map.2 ((List.pairwise_lt_finRange anchorCount).filter _)
    · rw [OrderedSet.mem_ofList, ← hnumbers, List.mem_map, List.mem_map]
      simp only [hmem]
  · intro hnil
    have hnone : chosen = [] := by
      refine List.eq_nil_iff_forall_not_mem.2 fun anchor hanchor => ?_
      exact List.not_mem_nil (hnil ▸ (hmem anchor).2 hanchor : anchor ∈ [])
    exact hsome (List.isEmpty_iff.2 hnone)

/-- Gray indices are refused for the first number that is none. -/
theorem withSamples_eq_error_iff :
    builder.withSamples indices = .error error ↔
      ∃ got, indices.find? (orbitSize ≤ ·) = some got ∧
        error = .refused (.outOfRange .vBits got orbitSize) := by
  rw [withSamples]
  constructor
  · intro h
    rcases bind_eq_error_iff.1 h with hrange | ⟨_, -, h⟩
    · obtain ⟨refusal, hrefusal, rfl⟩ := mapError_eq_error_iff.1 hrange
      obtain ⟨got, hgot, rfl⟩ := mapM_checkBelow_eq_error_iff.1 hrefusal
      exact ⟨got, hgot, rfl⟩
    · cases h
  · rintro ⟨got, hgot, rfl⟩
    have hrefusal : indices.mapM (checkBelow .vBits orbitSize) = .error _ :=
      mapM_checkBelow_eq_error_iff.2 ⟨got, hgot, rfl⟩
    exact bind_eq_error_iff.2 (.inl (mapError_eq_error_iff.2 ⟨_, hrefusal, rfl⟩))

/-- Accepted Gray indices are kept as they are. -/
theorem of_withSamples_eq_ok (h : builder.withSamples indices = .ok changed) :
    changed.samples.map (·.val) = indices ∧ changed.anchors = builder.anchors := by
  obtain ⟨samples, hsamples, h⟩ := bind_eq_ok_iff.1 h
  obtain rfl := Except.ok.inj h
  exact ⟨mapM_checkBelow_eq_ok (mapError_eq_ok_iff.1 hsamples), rfl⟩

/-- A builder that holds the given anchors, in ascending order and at least one, and the given Gray
indices. -/
structure Holds (builder : CertificateBuilder) (anchors indices : List Nat) : Prop where
  anchors_eq : builder.anchors.map (·.val) = (OrderedSet.ofList anchors).toList
  anchors_ne_nil : builder.anchors ≠ []
  samples_eq : builder.samples.map (·.val) = indices

/-- A builder on which nothing was chosen holds all anchors and six samples. -/
theorem holds_standard : Holds {} (List.range anchorCount) [0, 1, 2, 3, 1024, 2047] where
  anchors_eq := by decide
  anchors_ne_nil := by decide
  samples_eq := rfl

/-- Whatever was chosen before, a builder holds the last choices. -/
theorem holds_ofChoices {choices : List Choice} (h : ofChoices choices = .ok builder) :
    builder.Holds (chosenAnchors choices) (chosenSamples choices) := by
  induction choices using List.reverseRecOn generalizing builder with
  | nil =>
    obtain rfl : ({} : CertificateBuilder) = builder := Except.ok.inj h
    exact holds_standard
  | append_singleton choices choice ih =>
    rw [ofChoices, List.foldlM_append] at h
    obtain ⟨earlier, hearlier, h⟩ := bind_eq_ok_iff.1 h
    have hholds := ih hearlier
    obtain ⟨_, hchoice, h⟩ := bind_eq_ok_iff.1 h
    obtain rfl := Except.ok.inj h
    cases choice with
    | anchors numbers =>
      obtain ⟨hanchors, hne, hsamples⟩ := of_withAnchors_eq_ok hchoice
      have hlast : chosenAnchors (choices ++ [.anchors numbers]) = numbers := by
        simp [chosenAnchors, Choice.anchors?]
      have hsame : chosenSamples (choices ++ [.anchors numbers]) = chosenSamples choices := by
        simp [chosenSamples, Choice.samples?]
      rw [hlast, hsame]
      exact ⟨hanchors, hne, hsamples ▸ hholds.samples_eq⟩
    | samples indices =>
      obtain ⟨hsamples, hanchors⟩ := of_withSamples_eq_ok hchoice
      have hsame : chosenAnchors (choices ++ [.samples indices]) = chosenAnchors choices := by
        simp [chosenAnchors, Choice.anchors?]
      have hlast : chosenSamples (choices ++ [.samples indices]) = indices := by
        simp [chosenSamples, Choice.samples?]
      rw [hlast, hsame]
      exact ⟨hanchors ▸ hholds.anchors_eq, hanchors ▸ hholds.anchors_ne_nil, hsamples⟩

end CertificateBuilder

/-! ### Building -/

/-- The base of an anchor's orbit, in numbers. -/
def AnchorPosition.ofNumber (anchor : Nat) : AnchorPosition :=
  ⟨UInt8.ofNat anchor, UInt8.ofNat (8 * anchor), 0⟩

/-- The sample of an anchor's orbit at a Gray index, in numbers. -/
def OrbitSample.ofNumbers (anchor index : Nat) : OrbitSample :=
  let code := index ^^^ (index >>> 1)
  let point := ⟨UInt8.ofNat (8 * anchor + code / 256), UInt8.ofNat (code % 256)⟩
  { anchor := UInt8.ofNat anchor
    grayIndex := UInt16.ofNat index
    grayCode := UInt16.ofNat code
    walked := point
    folded := point }

/-- A certificate of the given anchors with a sample of each orbit at each of the given indices, and
with the right checksum. -/
structure Certificate.Covers (certificate : Certificate) (anchors indices : List Nat) : Prop where
  positions : certificate.anchorPositions = anchors.map AnchorPosition.ofNumber
  count : certificate.anchors = UInt32.ofNat anchors.length
  samples : certificate.orbitSamples =
    anchors.flatMap fun anchor => indices.map (OrbitSample.ofNumbers anchor)
  verified : certificate.verifyChecksum = true

namespace CertificateBuilder

variable {builder other : CertificateBuilder} {anchors indices : List Nat}

/-- Where an anchor stands is settled by its number. -/
theorem positionOf_eq (anchor : Anchor) : positionOf anchor = .ofNumber anchor.val := by
  rw [positionOf, base, AnchorPosition.ofNumber, anchorStride, Nat.mul_comm]

/-- A walk leads to the point that the numbers of a sample give. -/
theorem act_base_grayCode (anchor : Anchor) {index : Nat} (h : index < orbitSize) :
    act (base anchor) (grayCode index) = (OrbitSample.ofNumbers anchor.val index).walked := by
  have hcode : (Fin.ofNat orbitSize (grayCode index)).val = index ^^^ (index >>> 1) := by
    rw [Fin.val_ofNat, Nat.mod_eq_of_lt (grayCode_lt index), grayCode_eq h]
  rw [act_base, point_ofAnchor, hcode, OrbitSample.ofNumbers, anchorStride, Nat.mul_comm]

/-- A walk is sampled at the chosen indices, in ascending order and at each once. -/
theorem samplesOf_eq (builder : CertificateBuilder) (anchor : Anchor) :
    builder.samplesOf anchor = .ok
      ((OrderedSet.ofList (builder.samples.map (·.val))).toList.map
        (OrbitSample.ofNumbers anchor.val)) := by
  have hwanted : (OrderedSet.ofList (builder.samples.map (·.val))).toList =
      (List.range orbitSize).filter fun index => builder.samples.any (·.val == index) := by
    refine (OrderedSet.eq_toList_of_ascending (List.pairwise_lt_range.filter _) ?_).symm
    intro index
    simp only [List.mem_filter, List.mem_range, List.any_eq_true, beq_iff_eq,
      OrderedSet.mem_ofList, List.mem_map]
    constructor
    · exact And.right
    · rintro ⟨sample, hmem, rfl⟩
      exact ⟨sample.isLt, sample, hmem, rfl⟩
  rw [samplesOf, walkFrom, Walk.steps_eq, List.filter_map, hwanted, List.mapM_map]
  refine mapM_eq_ok fun index hmem => ?_
  have hindex : index < orbitSize := List.mem_range.1 (List.mem_filter.1 hmem).1
  refine bind_eq_ok_iff.2 ⟨_, checkStep_eq_ok anchor hindex, ?_⟩
  rw [stepAt, act_base_grayCode anchor hindex, grayCode_eq hindex]
  rfl

/-- Building passes all checks and gives a certificate of what the builder holds. -/
theorem Holds.build (h : builder.Holds anchors indices) :
    ∃ certificate, builder.build = .ok certificate ∧
      certificate.Covers (OrderedSet.ofList anchors).toList (OrderedSet.ofList indices).toList := by
  have hsamples : builder.anchors.mapM builder.samplesOf = .ok (builder.anchors.map fun anchor =>
      (OrderedSet.ofList indices).toList.map (OrbitSample.ofNumbers anchor.val)) :=
    mapM_eq_ok fun anchor _ => h.samples_eq ▸ builder.samplesOf_eq anchor
  have hbody : ∃ body, builder.body = .ok body ∧
      body.anchorPositions = builder.anchors.map positionOf ∧
      body.anchors = UInt32.ofNat builder.anchors.length ∧
      body.orbitSamples = (builder.anchors.map fun anchor =>
        (OrderedSet.ofList indices).toList.map (OrbitSample.ofNumbers anchor.val)).flatten := by
    rw [CertificateBuilder.body, checkLaws_eq_ok h.anchors_ne_nil, hsamples]
    exact ⟨_, rfl, rfl, rfl, rfl⟩
  obtain ⟨body, hbody, hpositions, hcount, horbits⟩ := hbody
  refine ⟨{ body with checksum := body.computeChecksum }, ?_, ?_⟩
  · rw [CertificateBuilder.build, hbody]
    rfl
  · constructor
    case positions =>
      have hposition : positionOf = fun anchor => AnchorPosition.ofNumber anchor.val :=
        funext positionOf_eq
      rw [← h.anchors_eq, List.map_map, hpositions, hposition]
      rfl
    case count => rw [← h.anchors_eq, List.length_map, hcount]
    case samples => rw [← h.anchors_eq, List.flatMap_map, horbits, List.flatMap_def]
    case verified => exact beq_self_eq_true body.computeChecksum

/-- What is built depends on nothing but the sets that a builder holds. -/
theorem Holds.build_congr {others further : List Nat} (h : builder.Holds anchors indices)
    (hother : other.Holds others further) (hanchors : ∀ n, n ∈ anchors ↔ n ∈ others)
    (hindices : ∀ n, n ∈ indices ↔ n ∈ further) : builder.build = other.build := by
  have hset {first second : List Nat} (hsame : ∀ n, n ∈ first ↔ n ∈ second) :
      (OrderedSet.ofList first).toList = (OrderedSet.ofList second).toList := by
    refine OrderedSet.eq_toList_of_ascending (OrderedSet.ascending_toList _) fun n => ?_
    rw [OrderedSet.mem_toList, OrderedSet.mem_ofList, OrderedSet.mem_ofList, hsame]
  have hsameAnchors : builder.anchors = other.anchors := by
    refine (List.map_inj_right fun _ _ => Fin.ext).1 ?_
    rw [h.anchors_eq, hother.anchors_eq, hset hanchors]
  have hsameSamples : builder.samplesOf = other.samplesOf := by
    funext anchor
    rw [samplesOf_eq, samplesOf_eq, h.samples_eq, hother.samples_eq, hset hindices]
  rw [CertificateBuilder.build, CertificateBuilder.build, body, body, hsameAnchors, hsameSamples]

/-- Certificates contain exactly what was chosen. A choice of anchors is refused for the first
number that is none or for being empty, a choice of Gray indices for the first number that is none.
Once all choices are accepted, building succeeds: the certificate has the last chosen anchors with
their bases and a sample of each orbit at each of the last chosen indices, ascending and without
repetition, and its checksum is right. Choices of the same sets lead to the same certificate. -/
theorem build_as_chosen :
    (∀ (builder : CertificateBuilder) numbers error,
      builder.withAnchors numbers = .error error ↔
        (∃ got, numbers.find? (anchorCount ≤ ·) = some got ∧
          error = .refused (.outOfRange .anchor got anchorCount)) ∨
        numbers = [] ∧ error = .fault .noAnchors) ∧
    (∀ (builder : CertificateBuilder) indices error,
      builder.withSamples indices = .error error ↔
        ∃ got, indices.find? (orbitSize ≤ ·) = some got ∧
          error = .refused (.outOfRange .vBits got orbitSize)) ∧
    (∀ choices builder, ofChoices choices = .ok builder →
      ∃ certificate, builder.build = .ok certificate ∧
        certificate.Covers (OrderedSet.ofList (chosenAnchors choices)).toList
          (OrderedSet.ofList (chosenSamples choices)).toList) ∧
    ∀ choices others builder other, ofChoices choices = .ok builder →
      ofChoices others = .ok other →
      (∀ n, n ∈ chosenAnchors choices ↔ n ∈ chosenAnchors others) →
      (∀ n, n ∈ chosenSamples choices ↔ n ∈ chosenSamples others) →
      builder.build = other.build := by
  refine ⟨?_, ?_, ?_, ?_⟩
  · intro builder numbers error
    exact withAnchors_eq_error_iff
  · intro builder indices error
    exact withSamples_eq_error_iff
  · intro choices builder h
    exact (holds_ofChoices h).build
  · intro choices others builder other h hother hanchors hindices
    exact (holds_ofChoices h).build_congr (holds_ofChoices hother) hanchors hindices

/-- Of two choices of indices the later counts, and repetitions in a choice do not. -/
theorem build_as_chosen_after_repetitions :
    let choices : List Choice := [.anchors [5, 1, 5], .samples [2047], .samples [3, 0, 3]]
    ∃ builder certificate, ofChoices choices = .ok builder ∧ builder.build = .ok certificate ∧
      certificate.anchorPositions = [⟨1, 8, 0⟩, ⟨5, 40, 0⟩] ∧
      certificate.orbitSamples.map
          (fun sample => (sample.anchor, sample.grayIndex, sample.walked)) =
        [(1, 0, ⟨8, 0⟩), (1, 3, ⟨8, 2⟩), (5, 0, ⟨40, 0⟩), (5, 3, ⟨40, 2⟩)] ∧
      certificate.verifyChecksum = true := by
  intro choices
  have hchoices : ofChoices choices =
      .ok { anchors := [1, 5], samples := [3, 0, 3] } := by decide +kernel
  obtain ⟨-, -, hbuild, -⟩ := build_as_chosen
  obtain ⟨certificate, hok, hcovers⟩ := hbuild choices _ hchoices
  refine ⟨_, certificate, hchoices, hok, ?_, ?_, hcovers.verified⟩
  · rw [hcovers.positions]
    decide +kernel
  · rw [hcovers.samples]
    decide +kernel

end CertificateBuilder

end LatticeLedger
