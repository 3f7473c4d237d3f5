import LatticeLedger.Guard.Basic
import LatticeLedger.Lattice.Contract
import LatticeLedger.Proofs.Lattice.Conversions

/-!
# What the guard asks for

The guard accepts a class and coordinates exactly if every number lies in its range and two names
of one place agree. `Coordinates.demands` lists these conditions in the order in which they are
looked at, each with the refusal that reports it, and the guard fails with the first that is not
met. The address it gives is the only one with the given class and place, so holding it to the
contract of addresses once more, in the widths in which it is stored, changes nothing.
-/

namespace LatticeLedger

/-- A condition that is met or not, and the refusal of what does not meet it. -/
structure Demand where
  met : Bool
  refusal : Refusal

namespace Demand

/-- A class must be one of the 96. -/
def ofClass (classId : UInt32) : Demand := ⟨classId.toNat < 96, .noSuchClass classId.toNat⟩

/-- A coordinate must be one of the 12,288 of a class. -/
def ofCoord (coord : UInt32) : Demand := ⟨coord.toNat < 12288, .noSuchCoord coord.toNat⟩

/-- An anchor must be one of the six. -/
def ofAnchor (anchor : UInt32) : Demand :=
  ⟨anchor.toNat < 6, .outOfRange .anchor anchor.toNat 6⟩

/-- An offset must stay within the orbit of its anchor. -/
def ofOffset (vBits : UInt32) : Demand :=
  ⟨vBits.toNat < 2048, .outOfRange .vBits vBits.toNat 2048⟩

/-- A coordinate must be the one that anchor and offset encode. -/
def ofAgreement (coord anchor vBits : UInt32) : Demand :=
  let encoded := anchor.toNat * 2048 + vBits.toNat
  ⟨coord.toNat = encoded, .disagreement coord.toNat encoded⟩

/-- The refusal of the first demand that is not met. -/
def firstRefusal : List Demand → Option Refusal
  | [] => none
  | demand :: rest => if demand.met then firstRefusal rest else some demand.refusal

/-- The first refusal of a single demand is its own, if the demand is not met. -/
theorem firstRefusal_singleton_eq_some_iff {demand : Demand} {refusal : Refusal} :
    firstRefusal [demand] = some refusal ↔ demand.met = false ∧ demand.refusal = refusal := by
  rw [firstRefusal, firstRefusal]
  cases demand.met <;> simp

/-- A single demand gives no refusal if it is met. -/
theorem firstRefusal_singleton_eq_none_iff {demand : Demand} :
    firstRefusal [demand] = none ↔ demand.met = true := by
  rw [firstRefusal, firstRefusal]
  cases demand.met <;> simp

/-- A first refusal is found in the first part of a list or, if all of that is met, in the rest. -/
theorem firstRefusal_append_eq_some_iff {first rest : List Demand} {refusal : Refusal} :
    firstRefusal (first ++ rest) = some refusal ↔ firstRefusal first = some refusal ∨
      firstRefusal first = none ∧ firstRefusal rest = some refusal := by
  induction first with
  | nil => simp [firstRefusal]
  | cons demand others ih =>
    rw [List.cons_append, firstRefusal, firstRefusal]
    split
    case isTrue => exact ih
    case isFalse => simp

/-- Whether a check fails with the first of some demands that is not met, and only then. -/
def DecideBy {α : Type} (demands : List Demand) (check : Except Refusal α) : Prop :=
  ∀ refusal, check = .error refusal ↔ firstRefusal demands = some refusal

/-- A check that succeeds has met all of its demands. -/
theorem DecideBy.met {α : Type} {demands : List Demand} {check : Except Refusal α} {answer : α}
    (h : DecideBy demands check) (hok : check = .ok answer) : firstRefusal demands = none := by
  cases hfirst : firstRefusal demands with
  | none => rfl
  | some refusal =>
    rw [(h refusal).2 hfirst] at hok
    cases hok

/-- The demands of a sequence are those of its steps, one after the other. -/
theorem DecideBy.bind {α β : Type} {demands others : List Demand} {first : Except Refusal α}
    {next : α → Except Refusal β} (hfirst : DecideBy demands first)
    (hnext : ∀ answer, first = .ok answer → DecideBy others (next answer)) :
    DecideBy (demands ++ others) (first >>= next) := by
  intro refusal
  rw [bind_eq_error_iff, firstRefusal_append_eq_some_iff, hfirst]
  refine or_congr_right ?_
  constructor
  · rintro ⟨answer, hok, herror⟩
    exact ⟨hfirst.met hok, (hnext answer hok refusal).1 herror⟩
  · rintro ⟨hmet, hrefusal⟩
    cases hcheck : first with
    | error found =>
      rw [(hfirst found).1 hcheck] at hmet
      cases hmet
    | ok answer => exact ⟨answer, rfl, (hnext answer hcheck refusal).2 hrefusal⟩

/-- An answer makes no demands. -/
theorem decideBy_return {α : Type} {answer : α} : DecideBy [] (.ok answer) :=
  fun _ => ⟨nofun, nofun⟩

/-- A bound is a single demand. -/
theorem decideBy_checkBelow {field : AddressField} {bound got : Nat} :
    DecideBy [⟨got < bound, .outOfRange field got bound⟩] (checkBelow field bound got) := by
  intro refusal
  simp only [checkBelow_eq_error_iff, firstRefusal_singleton_eq_some_iff,
    decide_eq_false_iff_not, Nat.not_lt]

/-- A condition is a single demand. -/
theorem decideBy_require {condition : Prop} [Decidable condition] {refusal : Refusal} :
    DecideBy [⟨condition, refusal⟩] (require condition refusal) := by
  intro found
  simp only [require_eq_error_iff, firstRefusal_singleton_eq_some_iff, decide_eq_false_iff_not]

/-- Of an anchor and an offset the anchor is looked at first. -/
theorem decideBy_encode {anchor vBits : UInt32} :
    DecideBy [.ofAnchor anchor, .ofOffset vBits] (Coord.encode anchor.toNat vBits.toNat) :=
  decideBy_checkBelow.bind fun _ _ => decideBy_checkBelow.bind fun _ _ => decideBy_return

/-- Of a class and a coordinate the class is looked at first. -/
theorem decideBy_locate {classId coord : UInt32} :
    DecideBy [.ofClass classId, .ofCoord coord] (Address.locate classId.toNat coord.toNat) := by
  intro refusal
  rw [Address.locate_eq_error_iff, ← List.singleton_append, firstRefusal_append_eq_some_iff,
    firstRefusal_singleton_eq_some_iff, firstRefusal_singleton_eq_some_iff,
    firstRefusal_singleton_eq_none_iff]
  simp only [ofClass, ofCoord, decide_eq_false_iff_not, decide_eq_true_eq, Nat.not_lt]
  exact Iff.rfl

/-- The class alone decides if the coordinate is one. -/
theorem decideBy_locate_val {classId : UInt32} {coord : Coord} :
    DecideBy [.ofClass classId] (Address.locate classId.toNat coord.val) := by
  intro refusal
  have hcoord : ¬coordCount ≤ coord.val := Nat.not_le.2 coord.isLt
  simp only [Address.locate_eq_error_iff, hcoord, firstRefusal_singleton_eq_some_iff, ofClass,
    decide_eq_false_iff_not, Nat.not_lt, false_and, and_false, or_false]

end Demand

namespace Coordinates

/-- What is asked of a class and coordinates, in the order in which it is asked. -/
def demands (classId : UInt32) : Coordinates → List Demand
  | linear coord => [.ofClass classId, .ofCoord coord]
  | anchorOffset anchor vBits => [.ofAnchor anchor, .ofOffset vBits, .ofClass classId]
  | both coord anchor vBits =>
    [.ofClass classId, .ofCoord coord, .ofAnchor anchor, .ofOffset vBits,
      .ofAgreement coord anchor vBits]

/-- Whether every number lies in its range and both names of a place agree. -/
def Within : Coordinates → Prop
  | linear coord => coord.toNat < 12288
  | anchorOffset anchor vBits => anchor.toNat < 6 ∧ vBits.toNat < 2048
  | both coord anchor vBits =>
    coord.toNat < 12288 ∧ anchor.toNat < 6 ∧ vBits.toNat < 2048 ∧
      coord.toNat = anchor.toNat * 2048 + vBits.toNat

instance decidableWithin : DecidablePred Within
  | linear coord => inferInstanceAs (Decidable (coord.toNat < 12288))
  | anchorOffset anchor vBits =>
    inferInstanceAs (Decidable (anchor.toNat < 6 ∧ vBits.toNat < 2048))
  | both coord anchor vBits =>
    inferInstanceAs (Decidable (coord.toNat < 12288 ∧ anchor.toNat < 6 ∧ vBits.toNat < 2048 ∧
      coord.toNat = anchor.toNat * 2048 + vBits.toNat))

/-- The place that coordinates name: the coordinate given, or else the encoded one. -/
def place : Coordinates → Nat
  | linear coord => coord.toNat
  | anchorOffset anchor vBits => anchor.toNat * 2048 + vBits.toNat
  | both coord _ _ => coord.toNat

/-- Coordinates within their bounds name a place in the class. -/
theorem place_lt {coordinates : Coordinates} (h : coordinates.Within) :
    coordinates.place < coordCount := by
  cases coordinates with
  | linear coord => exact h
  | anchorOffset anchor vBits => exact Coord.ofAnchor_lt h.1 h.2
  | both coord anchor vBits => exact h.1

end Coordinates

/-- The numbers of an address are those of a class and a place: anchor and offset, and likewise row
and column, are the only ones in range that name the place. -/
structure Address.Describes (address : Address) (classId place : Nat) : Prop where
  classId : address.classId.val = classId
  coord : address.coord.val = place
  offset_lt : address.offset.val < 2048
  col_lt : address.col.val < 256
  anchor_offset : ∀ anchor offset, offset < 2048 →
    (place = anchor * 2048 + offset ↔ anchor = address.anchor.val ∧ offset = address.offset.val)
  row_col : ∀ row col, col < 256 →
    (place = row * 256 + col ↔ row = address.row.val ∧ col = address.col.val)

/-- Every address is described by its own class and coordinate. -/
theorem Address.describes (address : Address) :
    address.Describes address.classId.val address.coord.val where
  classId := rfl
  coord := rfl
  offset_lt := address.offset.isLt
  col_lt := address.col.isLt
  anchor_offset _ _ h := Coord.eq_anchor_offset_iff h
  row_col _ _ h := Coord.eq_row_col_iff h

/-- The guard accepts only coordinates that name a place. -/
theorem within_of_guardAddress {classId : UInt32} {coordinates : Coordinates} {address : Address}
    (h : guardAddress classId coordinates = .ok address) : coordinates.Within := by
  cases coordinates with
  | linear coord =>
    have hcoord := (Address.locate_eq_ok_iff.1 h).2
    exact (hcoord ▸ address.coord.isLt : coord.toNat < coordCount)
  | anchorOffset anchor vBits =>
    obtain ⟨coord, hencode, -⟩ := bind_eq_ok_iff.1 h
    obtain ⟨ha, hv, -⟩ := Coord.encode_eq_ok_iff.1 hencode
    exact ⟨ha, hv⟩
  | both coord anchor vBits =>
    obtain ⟨found, hlocate, h⟩ := bind_eq_ok_iff.1 h
    obtain ⟨encoded, hencode, h⟩ := bind_eq_ok_iff.1 h
    obtain ⟨_, hrequire, -⟩ := bind_eq_ok_iff.1 h
    have hcoord := (Address.locate_eq_ok_iff.1 hlocate).2
    obtain ⟨ha, hv, hval⟩ := Coord.encode_eq_ok_iff.1 hencode
    exact ⟨hcoord ▸ found.coord.isLt, ha, hv, (require_eq_ok_iff.1 hrequire).symm.trans hval⟩

/-- Coordinates that name a place are guarded like the place itself. -/
theorem guardAddress_of_within {classId : UInt32} {coordinates : Coordinates}
    (h : coordinates.Within) :
    guardAddress classId coordinates = Address.locate classId.toNat coordinates.place := by
  cases coordinates with
  | linear coord => rfl
  | anchorOffset anchor vBits =>
    have hencode : Coord.encode anchor.toNat vBits.toNat =
        .ok ⟨anchor.toNat * orbitSize + vBits.toNat, Coord.ofAnchor_lt h.1 h.2⟩ :=
      Coord.encode_eq_ok_iff.2 ⟨h.1, h.2, rfl⟩
    rw [guardAddress, hencode]
    rfl
  | both coord anchor vBits =>
    obtain ⟨hcoord, ha, hv, hagree⟩ := h
    have hencode : Coord.encode anchor.toNat vBits.toNat = .ok ⟨coord.toNat, hcoord⟩ :=
      Coord.encode_eq_ok_iff.2 ⟨ha, hv, hagree⟩
    have hrequire : require ((⟨coord.toNat, hcoord⟩ : Coord).val = coord.toNat)
        (Refusal.disagreement coord.toNat coord.toNat) = .ok () := require_eq_ok_iff.2 rfl
    rw [guardAddress, Coordinates.place]
    cases Address.locate classId.toNat coord.toNat with
    | error refusal => rfl
    | ok address =>
      refine bind_eq_ok_iff.2 ⟨address, rfl, bind_eq_ok_iff.2 ⟨_, hencode, ?_⟩⟩
      exact bind_eq_ok_iff.2 ⟨(), hrequire, rfl⟩

/-- The guard succeeds with the address of the given class and place, provided that the
coordinates name one. -/
theorem guardAddress_eq_ok_iff {classId : UInt32} {coordinates : Coordinates}
    {address : Address} :
    guardAddress classId coordinates = .ok address ↔ coordinates.Within ∧
      address.classId.val = classId.toNat ∧ address.coord.val = coordinates.place := by
  constructor
  · intro h
    have hwithin := within_of_guardAddress h
    rw [guardAddress_of_within hwithin] at h
    exact ⟨hwithin, Address.locate_eq_ok_iff.1 h⟩
  · rintro ⟨hwithin, haddress⟩
    rw [guardAddress_of_within hwithin]
    exact Address.locate_eq_ok_iff.2 haddress

/-- The guard fails with the first demand that is not met. -/
theorem decideBy_guardAddress {classId : UInt32} {coordinates : Coordinates} :
    Demand.DecideBy (coordinates.demands classId) (guardAddress classId coordinates) := by
  cases coordinates with
  | linear coord => exact Demand.decideBy_locate
  | anchorOffset anchor vBits =>
    exact Demand.decideBy_encode.bind fun coord _ => Demand.decideBy_locate_val
  | both coord anchor vBits =>
    refine Demand.decideBy_locate.bind fun address hlocate => ?_
    refine Demand.decideBy_encode.bind fun encoded hencode => ?_
    obtain ⟨-, -, hval⟩ := Coord.encode_eq_ok_iff.1 hencode
    have hdemand : Demand.ofAgreement coord anchor vBits =
        ⟨encoded.val = coord.toNat, .disagreement coord.toNat encoded.val⟩ := by
      simp only [Demand.ofAgreement, hval, eq_comm]
    exact (hdemand ▸ Demand.decideBy_require).bind fun _ _ => Demand.decideBy_return

/-- The address of a class and coordinates, held to the contract of addresses once more. Its
numbers are cut to the bytes and words in which an address is stored: the class as it was given,
anchor, offset and cell as they follow from the coordinate. -/
def recheckedAddress (classId : UInt32) (coordinates : Coordinates) :
    Except (Refusal ⊕ Violation) Address := do
  let coord ← ((guardAddress classId coordinates).map (·.coord.val)).mapError .inl
  let (anchor, offset) ← (Coord.decode coord).mapError .inl
  let point ← (Coord.fold coord).mapError .inl
  (Address.ofParts classId.toUInt8 (UInt16.ofNat coord) (UInt8.ofNat anchor.val)
    (UInt16.ofNat offset.val) point.row point.col).mapError .inr

/-- The second check never fails and gives the address that it was given. -/
theorem recheckedAddress_eq (classId : UInt32) (coordinates : Coordinates) :
    recheckedAddress classId coordinates =
      (guardAddress classId coordinates).mapError .inl := by
  cases h : guardAddress classId coordinates with
  | error refusal =>
    rw [recheckedAddress, h]
    rfl
  | ok address =>
    have hclass : classId.toUInt8 = UInt8.ofNat address.classId.val := by
      rw [(guardAddress_eq_ok_iff.1 h).2.1]
      rfl
    rw [recheckedAddress, h, hclass]
    refine bind_eq_ok_iff.2 ⟨address.coord.val, rfl, ?_⟩
    refine bind_eq_ok_iff.2 ⟨(address.anchor, address.offset), ?_, ?_⟩
    · exact mapError_eq_ok_iff.2 address.coord.decode_val
    refine bind_eq_ok_iff.2 ⟨address.coord.point, ?_, ?_⟩
    · exact mapError_eq_ok_iff.2 address.coord.fold_val
    · exact mapError_eq_ok_iff.2 address.ofParts_val

/-- The guard is decided by arithmetic. It succeeds if and only if the class is one of the 96 and
the coordinates are within their ranges and agree; the address then has the class as it was given
and the place that the coordinates name, with the only anchor, offset, row and column that name it,
so two ways of naming a place have the same result. Otherwise it fails with the first demand that is
not met. A second check of the result never fails, and a step keeps its position and its notes. -/
theorem guardAddress_decision (classId : UInt32) (coordinates : Coordinates) :
    ((∃ address, guardAddress classId coordinates = .ok address) ↔
      classId.toNat < 96 ∧ coordinates.Within) ∧
    (∀ address, guardAddress classId coordinates = .ok address →
      address.Describes classId.toNat coordinates.place) ∧
    (∀ refusal, guardAddress classId coordinates = .error refusal ↔
      Demand.firstRefusal (coordinates.demands classId) = some refusal) ∧
    (∀ other : Coordinates, coordinates.Within → other.Within →
      other.place = coordinates.place →
      guardAddress classId other = guardAddress classId coordinates) ∧
    recheckedAddress classId coordinates = (guardAddress classId coordinates).mapError .inl ∧
    ∀ t metadata, guardStep ⟨classId, coordinates, t, metadata⟩ =
      (guardAddress classId coordinates).map fun address => ⟨address, t, metadata⟩ := by
  refine ⟨?_, ?_, decideBy_guardAddress, ?_, recheckedAddress_eq classId coordinates, ?_⟩
  · constructor
    · rintro ⟨address, h⟩
      obtain ⟨hwithin, hclass, -⟩ := guardAddress_eq_ok_iff.1 h
      exact ⟨hclass ▸ address.classId.isLt, hwithin⟩
    · rintro ⟨hclass, hwithin⟩
      refine ⟨⟨⟨classId.toNat, hclass⟩, ⟨coordinates.place, Coordinates.place_lt hwithin⟩⟩, ?_⟩
      exact guardAddress_eq_ok_iff.2 ⟨hwithin, rfl, rfl⟩
  · intro address h
    obtain ⟨-, hclass, hplace⟩ := guardAddress_eq_ok_iff.1 h
    rw [← hclass, ← hplace]
    exact address.describes
  · intro other hwithin hother hplace
    rw [guardAddress_of_within hwithin, guardAddress_of_within hother, hplace]
  · intro t metadata
    rw [guardStep]
    cases guardAddress classId coordinates <;> rfl

/-- The three names of one place in the last class have one result, and two names of different
places have none. -/
theorem guardAddress_decision_of_three_names :
    ∃ address, guardAddress 95 (.linear 2050) = .ok address ∧
      guardAddress 95 (.anchorOffset 1 2) = .ok address ∧
      guardAddress 95 (.both 2050 1 2) = .ok address ∧ address.Describes 95 2050 ∧
      guardAddress 95 (.both 2051 1 2) = .error (.disagreement 2051 2050) := by
  have hlinear : (Coordinates.linear 2050).Within := by decide
  have hpair : (Coordinates.anchorOffset 1 2).Within := by decide
  have hboth : (Coordinates.both 2050 1 2).Within := by decide
  obtain ⟨hok, hdescribes, -, hsame, -⟩ := guardAddress_decision 95 (.linear 2050)
  obtain ⟨-, -, hrefused, -⟩ := guardAddress_decision 95 (.both 2051 1 2)
  obtain ⟨address, haddress⟩ := hok.2 ⟨by decide, hlinear⟩
  refine ⟨address, haddress, ?_, ?_, hdescribes address haddress, ?_⟩
  · rw [hsame _ hlinear hpair (by decide), haddress]
  · rw [hsame _ hlinear hboth (by decide), haddress]
  · exact (hrefused _).2 (by decide)

end LatticeLedger
