import LatticeLedger.Proofs.Json.Limits
import LatticeLedger.Proofs.Json.Parts

/-!
# One value in the place of another

Let two texts be the same but for the text of one value. They are read in step: behind the two
values the machine is in states that are the same but for the value, and every further token keeps
them so, or is out of place in both. So both texts have no value, or they have values that are the
same but for the one part, which stands at the same place in both.
-/

namespace LatticeLedger.Json

/-- Where a value stands in its container. -/
inductive Place
  | item (index : Nat)
  | member (name : Body)

/-- The place of the value that comes next in an open container. -/
def Frame.place : Frame → Place
  | array items => .item items.length
  | object _ name => .member name

/-- The places at which the value stands that comes next in open containers, outermost first. -/
def places (stack : List Frame) : List Place := (stack.map Frame.place).reverse

/-- The place in the innermost container comes behind those in the others. -/
theorem places_cons_append (frame : Frame) (stack : List Frame) (inner : List Place) :
    places (frame :: stack) ++ inner = places stack ++ frame.place :: inner := by
  simp [places]

/-- The values are the same but for the part at the given places: that is `x` in the first of them
and `y` in the second. -/
inductive Value.Differ (x y : Value) : List Place → Value → Value → Prop
  | here : Differ x y [] x y
  | item {path : List Place} {v w : Value} (before after : List Value) (h : Differ x y path v w) :
    Differ x y (.item before.length :: path) (.array (before ++ v :: after))
      (.array (before ++ w :: after))
  | member {path : List Place} {v w : Value} (before after : List Member) (name : Body)
    (h : Differ x y path v w) :
    Differ x y (.member name :: path) (.object (before ++ (name, v) :: after))
      (.object (before ++ (name, w) :: after))

/-! ### States that are the same but for one value -/

section

variable (x y : Value) (path : List Place)

/-- The complete items of an array that stands above a stack, latest first, are the same but for
the value at `path`. -/
inductive ItemsDiffer (stack : List Frame) : List Value → List Value → Prop
  | mk {inner : List Place} {v w : Value} (later earlier : List Value)
    (hpath : path = places stack ++ .item earlier.length :: inner)
    (h : Value.Differ x y inner v w) :
    ItemsDiffer stack (later ++ v :: earlier) (later ++ w :: earlier)

/-- The complete members of an object that stands above a stack, latest first, are the same but for
the value at `path`. -/
inductive MembersDiffer (stack : List Frame) : List Member → List Member → Prop
  | mk {inner : List Place} {v w : Value} (later earlier : List Member) (name : Body)
    (hpath : path = places stack ++ .member name :: inner) (h : Value.Differ x y inner v w) :
    MembersDiffer stack (later ++ (name, v) :: earlier) (later ++ (name, w) :: earlier)

/-- Open containers are the same but for the value at `path`. -/
inductive StackDiffer : List Frame → List Frame → Prop
  | array {stack : List Frame} {items others : List Value}
    (h : ItemsDiffer x y path stack items others) :
    StackDiffer (.array items :: stack) (.array others :: stack)
  | object {stack : List Frame} {members others : List Member} (name : Body)
    (h : MembersDiffer x y path stack members others) :
    StackDiffer (.object members name :: stack) (.object others name :: stack)
  | cons {stack other : List Frame} (frame : Frame) (h : StackDiffer stack other) :
    StackDiffer (frame :: stack) (frame :: other)

/-- States are the same but for the value at `path`. It may be the one that was completed last or a
part of it, it may belong to the object whose next name is being read, or to a container farther
out. -/
inductive State.Differ : State → State → Prop
  | value {stack other : List Frame} (h : StackDiffer x y path stack other) :
    Differ (.value stack) (.value other)
  | firstItem {stack other : List Frame} (h : StackDiffer x y path stack other) :
    Differ (.firstItem stack) (.firstItem other)
  | name {stack other : List Frame} (members : List Member)
    (h : StackDiffer x y path stack other) : Differ (.name members stack) (.name members other)
  | nameWithin {stack : List Frame} {members others : List Member}
    (h : MembersDiffer x y path stack members others) :
    Differ (.name members stack) (.name others stack)
  | firstName {stack other : List Frame} (h : StackDiffer x y path stack other) :
    Differ (.firstName stack) (.firstName other)
  | colon {stack other : List Frame} (members : List Member) (body : Body)
    (h : StackDiffer x y path stack other) :
    Differ (.colon members body stack) (.colon members body other)
  | colonWithin {stack : List Frame} {members others : List Member} (body : Body)
    (h : MembersDiffer x y path stack members others) :
    Differ (.colon members body stack) (.colon others body stack)
  | after {stack other : List Frame} (v : Value) (h : StackDiffer x y path stack other) :
    Differ (.after v stack) (.after v other)
  | afterWithin {stack : List Frame} {inner : List Place} {v w : Value}
    (hpath : path = places stack ++ inner) (h : Value.Differ x y inner v w) :
    Differ (.after v stack) (.after w stack)

end

variable {x y : Value} {path : List Place} {stack other : List Frame}

/-- One more item in front of both lists does not matter. -/
theorem ItemsDiffer.cons {items others : List Value} (h : ItemsDiffer x y path stack items others)
    (v : Value) : ItemsDiffer x y path stack (v :: items) (v :: others) := by
  obtain ⟨later, earlier, hpath, h⟩ := h
  exact .mk (v :: later) earlier hpath h

/-- One more member in front of both lists does not matter. -/
theorem MembersDiffer.cons {members others : List Member}
    (h : MembersDiffer x y path stack members others) (member : Member) :
    MembersDiffer x y path stack (member :: members) (member :: others) := by
  obtain ⟨later, earlier, name, hpath, h⟩ := h
  exact .mk (member :: later) earlier name hpath h

/-- Items that differ in one value make arrays that do. -/
theorem ItemsDiffer.close {items others : List Value}
    (h : ItemsDiffer x y path stack items others) :
    State.Differ x y path (.after (.array items.reverse) stack)
      (.after (.array others.reverse) stack) := by
  obtain ⟨later, earlier, hpath, h⟩ := h
  simp only [List.reverse_append, List.reverse_cons, List.append_assoc, List.cons_append,
    List.nil_append]
  refine .afterWithin hpath ?_
  rw [← List.length_reverse]
  exact .item earlier.reverse later.reverse h

/-- Members that differ in one value make objects that do. -/
theorem MembersDiffer.close {members others : List Member}
    (h : MembersDiffer x y path stack members others) :
    State.Differ x y path (.after (.object members.reverse) stack)
      (.after (.object others.reverse) stack) := by
  obtain ⟨later, earlier, name, hpath, h⟩ := h
  simp only [List.reverse_append, List.reverse_cons, List.append_assoc, List.cons_append,
    List.nil_append]
  exact .afterWithin hpath (.member earlier.reverse later.reverse name h)

/-- A value begins in the same way in containers that differ in another one. -/
theorem StackDiffer.beginValue (h : StackDiffer x y path stack other) (token : Token) :
    Option.Rel (State.Differ x y path) (State.beginValue stack token)
      (State.beginValue other token) := by
  cases token with
  | openArray => exact .some (.firstItem h)
  | openObject => exact .some (.firstName h)
  | null => exact .some (.after _ h)
  | bool b => exact .some (.after _ h)
  | number literal => exact .some (.after _ h)
  | string body => exact .some (.after _ h)
  | closeArray | closeObject | comma | colon => exact .none

namespace State

/-- Behind an item both machines go on to the next one or close their arrays, or both are stuck. -/
theorem step?_item {items others : List Value} {v w : Value}
    (hcomma : Differ x y path (.value (.array (v :: items) :: stack))
      (.value (.array (w :: others) :: other)))
    (hclose : Differ x y path (.after (.array (v :: items).reverse) stack)
      (.after (.array (w :: others).reverse) other)) (token : Token) :
    Option.Rel (Differ x y path) ((State.after v (.array items :: stack)).step? token)
      ((State.after w (.array others :: other)).step? token) := by
  cases token with
  | comma => exact .some hcomma
  | closeArray => exact .some hclose
  | _ => exact .none

/-- Behind a member both machines go on to the next one or close their objects, or both are stuck.
-/
theorem step?_member {members others : List Member} {name : Body} {v w : Value}
    (hcomma : Differ x y path (.name ((name, v) :: members) stack)
      (.name ((name, w) :: others) other))
    (hclose : Differ x y path (.after (.object ((name, v) :: members).reverse) stack)
      (.after (.object ((name, w) :: others).reverse) other)) (token : Token) :
    Option.Rel (Differ x y path) ((State.after v (.object members name :: stack)).step? token)
      ((State.after w (.object others name :: other)).step? token) := by
  cases token with
  | comma => exact .some hcomma
  | closeObject => exact .some hclose
  | _ => exact .none

/-- The next token is out of place in both states, or they stay the same but for one value. -/
theorem Differ.step? {state twin : State} (h : Differ x y path state twin) (token : Token) :
    Option.Rel (Differ x y path) (state.step? token) (twin.step? token) := by
  cases h with
  | value h => exact h.beginValue token
  | firstItem h =>
    by_cases hclose : token = .closeArray
    · subst hclose
      exact .some (.after _ h)
    · rw [begins_firstItem _ _ hclose, begins_firstItem _ _ hclose]
      exact (StackDiffer.cons (.array []) h).beginValue token
  | name members h =>
    cases token with
    | string body => exact .some (.colon members body h)
    | _ => exact .none
  | nameWithin h =>
    cases token with
    | string body => exact .some (.colonWithin body h)
    | _ => exact .none
  | firstName h =>
    cases token with
    | string body => exact .some (.colon [] body h)
    | closeObject => exact .some (.after _ h)
    | _ => exact .none
  | colon members body h =>
    cases token with
    | colon => exact .some (.value (.cons _ h))
    | _ => exact .none
  | colonWithin body h =>
    cases token with
    | colon => exact .some (.value (.object body h))
    | _ => exact .none
  | after v h =>
    -- The next token concerns the innermost container, which holds the value or lies within the one
    -- that does.
    cases h with
    | array h => exact step?_item (.value (.array (h.cons v))) (h.cons v).close token
    | object body h =>
      exact step?_member (.nameWithin (h.cons (body, v))) (h.cons (body, v)).close token
    | cons frame h =>
      cases frame with
      | array items => exact step?_item (.value (.cons _ h)) (.after _ h) token
      | object members body => exact step?_member (.name _ h) (.after _ h) token
  | @afterWithin stack inner v w hpath h =>
    -- The completed values differ themselves, and become parts of the innermost container.
    match stack with
    | [] => cases token <;> exact .none
    | .array items :: outer =>
      have hitems : ItemsDiffer x y path outer (v :: items) (w :: items) :=
        .mk [] items (hpath.trans (places_cons_append ..)) h
      exact step?_item (.value (.array hitems)) hitems.close token
    | .object members body :: outer =>
      have hmembers : MembersDiffer x y path outer ((body, v) :: members) ((body, w) :: members) :=
        .mk [] members body (hpath.trans (places_cons_append ..)) h
      exact step?_member (.nameWithin hmembers) hmembers.close token

/-- Neither state takes the whole text, or both do and stay the same but for one value. -/
theorem Differ.run? {state twin : State} (h : Differ x y path state twin) (text : List Char) :
    Option.Rel (Differ x y path) (state.run? text) (twin.run? text) := by
  fun_induction State.run? state text generalizing twin with
  | case1 state =>
    rw [State.run?]
    exact .some h
  | case2 state c text hblank ih =>
    rw [State.run?, if_pos hblank]
    exact ih h
  | case3 state c text hblank hscan =>
    rw [State.run?, if_neg hblank]
    split
    case h_1 => exact .none
    case h_2 htaken => rw [hscan] at htaken; cases htaken
  | case4 state c text hblank token rest hscan hstep =>
    have hnext := h.step? token
    rw [hstep] at hnext
    rw [run?_of_scan? token rest hscan]
    generalize twin.step? token = next at hnext ⊢
    cases hnext
    exact .none
  | case5 state c text hblank token rest hscan next hstep ih =>
    have hnext := h.step? token
    rw [hstep] at hnext
    rw [run?_of_scan? token rest hscan]
    generalize twin.step? token = after at hnext ⊢
    cases hnext with
    | some hnext => exact ih hnext

/-- Where nothing is missing, the values are the same but for one part. -/
theorem Differ.result? {state twin : State} (h : Differ x y path state twin) :
    Option.Rel (Value.Differ x y path) state.result? twin.result? := by
  cases h with
  | after v h => cases h <;> exact .none
  | @afterWithin stack inner v w hpath h =>
    cases stack with
    | nil =>
      obtain rfl : path = inner := hpath
      exact .some h
    | cons frame stack => exact .none
  | _ => exact .none

end State

namespace Value

/-- The values of two texts that are the same but for the text of one value. -/
theorem differ_of_parse? {before first second : List Char} {stack : List Frame}
    (hbefore : (State.value []).run? before = some (.value stack))
    (hfirst : parse? first = some x) (hsecond : parse? second = some y) (after : List Char)
    (hx : (State.after x stack).MayFollow after) (hy : (State.after y stack).MayFollow after) :
    Option.Rel (Differ x y (places stack)) (parse? (before ++ (first ++ after)))
      (parse? (before ++ (second ++ after))) := by
  have hrun := (State.Differ.afterWithin (List.append_nil _).symm .here :
    State.Differ x y (places stack) (.after x stack) (.after y stack)).run? after
  rw [parse?, parse?, State.run?_append hbefore (State.mayFollow_value _ _),
    State.run?_append hbefore (State.mayFollow_value _ _),
    State.run?_of_parse? hfirst stack hx, State.run?_of_parse? hsecond stack hy]
  generalize (State.after x stack).run? after = final at hrun ⊢
  generalize (State.after y stack).run? after = twin at hrun ⊢
  cases hrun with
  | none => exact .none
  | some h => exact h.result?

/-- Values that differ in one part keep the same limits if the parts do where they stand. -/
theorem Differ.keepsLimits_eq {v w : Value} (h : Differ x y path v w) {levels : Nat}
    (hparts : x.keepsLimits (levels - path.length) = y.keepsLimits (levels - path.length)) :
    v.keepsLimits levels = w.keepsLimits levels := by
  induction h generalizing levels with
  | here => exact hparts
  | item before after h ih =>
    rw [List.length_cons, Nat.add_comm, ← Nat.sub_sub] at hparts
    simp only [keepsLimits, itemsKeepLimits_append, itemsKeepLimits, ih hparts]
  | member before after name h ih =>
    rw [List.length_cons, Nat.add_comm, ← Nat.sub_sub] at hparts
    simp only [keepsLimits, membersKeepLimits_append, membersKeepLimits, ih hparts]

end Value

end LatticeLedger.Json
