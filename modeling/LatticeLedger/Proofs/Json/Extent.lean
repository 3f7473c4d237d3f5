import LatticeLedger.Ledger.File
import LatticeLedger.Proofs.Json.Layout

/-!
# A text holds no more values than characters

The extent of a value is the number of values of which it consists. The machine that reads a text
holds complete values and open containers, and every token adds at most one value to them. So a
value that was read is no larger than its text is long, and neither is any list in it.
-/

namespace LatticeLedger.Json

namespace Value

mutual

/-- The number of values of which a value consists, itself included. -/
def extent : Value → Nat
  | .array items => itemsExtent items + 1
  | .object members => membersExtent members + 1
  | .null | .bool _ | .number _ | .string _ => 1

/-- The number of values in the items of an array. -/
def itemsExtent : List Value → Nat
  | [] => 0
  | item :: rest => item.extent + itemsExtent rest

/-- The number of values in the members of an object. -/
def membersExtent : List (Body × Value) → Nat
  | [] => 0
  | (_, value) :: rest => value.extent + membersExtent rest

end

/-- A value consists of itself at least. -/
theorem extent_pos (v : Value) : 0 < v.extent := by
  cases v <;> simp [extent]

/-- Every item has an extent, so there are at least as many values as items. -/
theorem length_le_itemsExtent (items : List Value) : items.length ≤ itemsExtent items := by
  induction items with
  | nil => exact Nat.le_refl 0
  | cons item rest ih =>
    have hpos := item.extent_pos
    rw [List.length_cons, itemsExtent]
    omega

/-- A member has no more values than all members together. -/
theorem extent_le_membersExtent {members : List Member} {member : Member}
    (h : member ∈ members) : member.2.extent ≤ membersExtent members := by
  induction members with
  | nil => cases h
  | cons first rest ih =>
    rw [membersExtent]
    rcases List.mem_cons.1 h with rfl | hmem
    · exact Nat.le_add_right _ _
    · exact Nat.le_trans (ih hmem) (Nat.le_add_left _ _)

/-- The values of two lists of items add up. -/
theorem itemsExtent_append (first second : List Value) :
    itemsExtent (first ++ second) = itemsExtent first + itemsExtent second := by
  induction first with
  | nil => rw [List.nil_append, itemsExtent, Nat.zero_add]
  | cons item rest ih => rw [List.cons_append, itemsExtent, itemsExtent, ih, Nat.add_assoc]

/-- The order of items does not matter to their extent. -/
@[simp] theorem itemsExtent_reverse (items : List Value) :
    itemsExtent items.reverse = itemsExtent items := by
  induction items with
  | nil => rfl
  | cons item rest ih =>
    rw [List.reverse_cons, itemsExtent_append, ih, itemsExtent, itemsExtent, itemsExtent]
    omega

/-- The names of members have no extent. -/
theorem membersExtent_eq (members : List Member) :
    membersExtent members = itemsExtent (members.map (·.2)) := by
  induction members with
  | nil => rfl
  | cons member rest ih => rw [membersExtent, List.map_cons, itemsExtent, ih]

/-- The order of members does not matter to their extent. -/
@[simp] theorem membersExtent_reverse (members : List Member) :
    membersExtent members.reverse = membersExtent members := by
  rw [membersExtent_eq, membersExtent_eq, List.map_reverse, itemsExtent_reverse]

end Value

open Value

/-- The number of values in an open container, itself included. -/
def Frame.extent : Frame → Nat
  | array items => itemsExtent items + 1
  | object members _ => membersExtent members + 1

/-- The number of values in open containers. -/
def stackExtent : List Frame → Nat
  | [] => 0
  | frame :: rest => frame.extent + stackExtent rest

namespace State

/-- The number of values that were begun. -/
def extent : State → Nat
  | value stack => stackExtent stack
  | firstItem stack | firstName stack => stackExtent stack + 1
  | name members stack | colon members _ stack => membersExtent members + 1 + stackExtent stack
  | after v stack => v.extent + stackExtent stack

/-- A token with which a value begins adds one value to those of the open containers. -/
theorem extent_beginValue {stack : List Frame} {token : Token} {next : State}
    (h : beginValue stack token = some next) : next.extent = stackExtent stack + 1 := by
  cases token <;> simp only [beginValue, Option.some.injEq, reduceCtorEq] at h
  all_goals
    subst h
    simp only [extent, Value.extent, Nat.add_comm 1]

/-- A token begins at most one value. -/
theorem extent_step? {state next : State} {token : Token} (h : state.step? token = some next) :
    next.extent ≤ state.extent + 1 := by
  unfold step? at h
  split at h
  case h_1 stack token => exact Nat.le_of_eq (extent_beginValue h)
  case h_3 stack token _ =>
    have hbegin := extent_beginValue h
    simp only [stackExtent, Frame.extent, itemsExtent, extent] at hbegin ⊢
    omega
  case h_12 => cases h
  -- In the other cases the open values are the same in another arrangement, or one is new.
  all_goals
    obtain rfl := Option.some.inj h
    simp only [extent, Value.extent, stackExtent, Frame.extent, itemsExtent, membersExtent,
      itemsExtent_reverse, membersExtent_reverse]
    omega

/-- A text begins at most as many values as it has characters. -/
theorem extent_run? {state final : State} {text : List Char} (h : state.run? text = some final) :
    final.extent ≤ state.extent + text.length := by
  fun_induction run? state text with
  | case1 state => exact Nat.le_of_eq (congrArg extent (Option.some.inj h).symm)
  | case2 state c text hblank ih =>
    have hrest := ih h
    rw [List.length_cons]
    omega
  | case3 => cases h
  | case4 => cases h
  | case5 state c text hblank token rest hscan next hnext ih =>
    have hrest := ih h
    have htoken := extent_step? hnext
    have hlength := Token.length_scan? hscan
    omega

end State

namespace Value

/-- A value consists of at most as many values as its text has characters. -/
theorem extent_le_of_parse? {text : List Char} {v : Value} (h : parse? text = some v) :
    v.extent ≤ text.length := by
  have hfinal := State.extent_run? (parse?_eq_some_iff.1 h)
  simp only [State.extent, stackExtent] at hfinal
  omega

/-- What is read item by item has as many elements as there are items. -/
theorem length_of_mapM_eq_some {α β : Type} {read : α → Option β} {items : List α}
    {list : List β} (h : items.mapM read = some list) : list.length = items.length := by
  induction items generalizing list with
  | nil =>
    obtain rfl := Option.some.inj h
    rfl
  | cons item rest ih =>
    rw [List.mapM_cons] at h
    obtain ⟨first, -, h⟩ := Option.bind_eq_some_iff.1 h
    obtain ⟨others, hothers, h⟩ := Option.bind_eq_some_iff.1 h
    obtain rfl := Option.some.inj h
    rw [List.length_cons, List.length_cons, ih hothers]

/-- A list is read from at least as many values as it has elements. -/
theorem length_le_of_list? {α : Type} {read : Reader α} {v : Value} {list : List α}
    (h : list? read v = some list) : list.length ≤ v.extent := by
  unfold list? at h
  split at h
  case h_1 items =>
    rw [length_of_mapM_eq_some h, extent]
    exact Nat.le_succ_of_le (length_le_itemsExtent items)
  case h_2 => cases h

end Value

end LatticeLedger.Json

namespace LatticeLedger.Ledger

open Json Value

/-- In both of its shapes a ledger has at most as many records as its value has parts. -/
theorem length_le_of_ofJson? {v : Value} {records : List Record} (h : ofJson? v = some records) :
    records.length ≤ v.extent := by
  unfold ofJson? at h
  split at h
  case h_1 members =>
    split at h
    case h_1 name items hfilter =>
      have hmem : (name, Value.array items) ∈ members :=
        (List.mem_filter.1 (hfilter ▸ List.mem_singleton_self _)).1
      have hread : list? Record.ofJson? (.array items) = some records := h
      have hrecords := length_le_of_list? hread
      have hmember := extent_le_membersExtent hmem
      rw [extent]
      exact Nat.le_succ_of_le (Nat.le_trans hrecords hmember)
    case h_2 => cases h
  case h_2 => exact length_le_of_list? h

/-- A ledger has at most as many records as its text has characters. -/
theorem length_le_of_parse? {text : String} {records : List Record}
    (h : parse? text = some records) : records.length ≤ text.length := by
  obtain ⟨v, hlimited, hread⟩ := Option.bind_eq_some_iff.1 h
  have hvalue : Value.parse? text.toList = some v := (Option.filter_eq_some_iff.1 hlimited).1
  have hextent := extent_le_of_parse? hvalue
  rw [String.length_toList] at hextent
  exact Nat.le_trans (length_le_of_ofJson? hread) hextent

end LatticeLedger.Ledger
