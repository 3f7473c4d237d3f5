import LatticeLedger.Proofs.Json.Members
import LatticeLedger.Proofs.Json.Replacement
import LatticeLedger.Proofs.Ledger.FileShapes

/-!
# Names in a context

Class and coordinate of a context may be read under a short or a long name, but not under both. A
context stands deep within a ledger file, so what is said about its names has to be carried through
the record, the list and the file around it. Each of these readers reads a value through one of its
parts: without that part there is nothing, and with it the rest is read the same way, whatever the
part is.
-/

namespace LatticeLedger

open Json Value

/-! ### Reading through a part -/

section

variable {α β γ : Type} {a b : Option α} {r s : Option β}

/-- Two readings go through those of a part, `a` and `b`, and both go on from there in one way. -/
def ReadThrough (a b : Option α) (r s : Option β) : Prop :=
  ∃ rest : α → Option β, r = a.bind rest ∧ s = b.bind rest

namespace ReadThrough

/-- What is made of the answer of a part is read through the part. -/
theorem map (f : α → β) : ReadThrough a b (a.map f) (b.map f) :=
  ⟨fun c => some (f c), Option.map_eq_bind, Option.map_eq_bind⟩

/-- Where nothing is read in any case, it does not matter through what. -/
theorem none : ReadThrough a b (Option.none : Option β) Option.none :=
  ⟨fun _ => Option.none, (Option.bind_fun_none a).symm, (Option.bind_fun_none b).symm⟩

/-- What is read after the part does not matter for it either. -/
theorem bind (h : ReadThrough a b r s) (f : β → Option γ) :
    ReadThrough a b (r.bind f) (s.bind f) := by
  obtain ⟨rest, rfl, rfl⟩ := h
  exact ⟨fun c => (rest c).bind f, Option.bind_assoc .., Option.bind_assoc ..⟩

/-- What is read before the part does not matter for it. -/
theorem under (o : Option γ) {f g : γ → Option β} (h : ∀ c, ReadThrough a b (f c) (g c)) :
    ReadThrough a b (o.bind f) (o.bind g) := by
  cases o with
  | none => exact none
  | some c => exact h c

/-- Without the part nothing is read. -/
theorem eq_none (h : ReadThrough a b r s) (ha : a = Option.none) : r = Option.none := by
  obtain ⟨rest, rfl, -⟩ := h
  rw [ha, Option.bind_none]

/-- With the same part the same is read. -/
theorem eq (h : ReadThrough a b r s) (hab : a = b) : r = s := by
  obtain ⟨rest, rfl, rfl⟩ := h
  rw [hab]

end ReadThrough

end

/-! ### Spellings -/

namespace LoggedContext

/-- The fields of a context that have two names, a short one and a long one. -/
def spellings : List (String × String) := [("class", "class_id"), ("coord", "coord_idx")]

/-- The two names of a field are different. -/
theorem ne_of_spelling {short long : String} (h : (short, long) ∈ spellings) : short ≠ long := by
  simp only [spellings, List.mem_cons, Prod.mk.injEq, List.not_mem_nil, or_false] at h
  rcases h with ⟨rfl, rfl⟩ | ⟨rfl, rfl⟩ <;> decide

/-- One field answers to both names. -/
theorem exists_field_of_spelling {short long : String} (h : (short, long) ∈ spellings) :
    ∃ field, (layout.find? fun field => field.answersTo short) = some field ∧
      (layout.find? fun field => field.answersTo long) = some field := by
  simp only [spellings, List.mem_cons, Prod.mk.injEq, List.not_mem_nil, or_false] at h
  rcases h with ⟨rfl, rfl⟩ | ⟨rfl, rfl⟩
  · exact ⟨{ name := "class", aliases := ["class_id"] }, by decide, by decide⟩
  · exact ⟨{ name := "coord", aliases := ["coord_idx"] }, by decide, by decide⟩

/-- Whether two names are the short one and the long one of a field, in either order. -/
def SameField (name other : String) : Prop := (name, other) ∈ spellings ∨ (other, name) ∈ spellings

/-- One field answers to both names, whichever comes first. -/
theorem SameField.exists_field {name other : String} (h : SameField name other) :
    ∃ field, (layout.find? fun field => field.answersTo name) = some field ∧
      (layout.find? fun field => field.answersTo other) = some field := by
  rcases h with h | h
  · exact exists_field_of_spelling h
  · obtain ⟨field, hother, hname⟩ := exists_field_of_spelling h
    exact ⟨field, hname, hother⟩

/-- How a context may be respelled: one of its members exchanges a short name for the long one, or
a long name for the short one. -/
inductive Respelled : List Member → List Member → Prop
  | mk {name spelling : String} (h : SameField name spelling) (before after : List Member)
    {body other : Body} (hname : body.text? = some name) (hspelling : other.text? = some spelling)
    (value : Value) :
    Respelled (before ++ (body, value) :: after) (before ++ (other, value) :: after)

/-- Whether a context has both names of a field. -/
def SpelledTwice (members : List Member) : Prop :=
  ∃ short long, (short, long) ∈ spellings ∧ (∃ member ∈ members, member.1.text? = some short) ∧
    ∃ member ∈ members, member.1.text? = some long

variable {members others : List Member} {levels : Nat}

/-- Objects with the same fields are the same context. -/
theorem ofJson?_congr {v w : Value} (h : v.fields? layout = w.fields? layout) :
    ofJson? v = ofJson? w := by
  rw [ofJson?, ofJson?, h]

/-- A respelled context is read as the context that it was. -/
theorem Respelled.ofJson?_eq (h : Respelled members others) :
    ofJson? (.object others) = ofJson? (.object members) := by
  obtain ⟨h, before, after, hname, hspelling, value⟩ := h
  obtain ⟨field, hfield, hother⟩ := h.exists_field
  exact ofJson?_congr (fields?_respelled hname hspelling hfield hother before after value)

/-- Respelling does not change whether members keep the limits. -/
theorem Respelled.membersKeepLimits_eq (h : Respelled members others) :
    membersKeepLimits levels others = membersKeepLimits levels members := by
  obtain ⟨-, before, after, hname, hspelling, value⟩ := h
  rw [membersKeepLimits_append, membersKeepLimits_append, membersKeepLimits, membersKeepLimits,
    hname, hspelling]
  rfl

/-- A context is read as it is without members that are no fields of it. -/
theorem ofJson?_of_extended (h : Extended layout levels members others) :
    ofJson? (.object others) = ofJson? (.object members) := by
  refine ofJson?_congr ?_
  rw [fields?_object, fields?_object, h.ofMembers?_eq]

/-- An object with both names of a field is no context. -/
theorem SpelledTwice.ofJson?_eq_none (h : SpelledTwice members) :
    ofJson? (.object members) = none := by
  obtain ⟨short, long, hspelling, ⟨⟨body, value⟩, hmem, hbody⟩, ⟨⟨other, twin⟩, hmemOther, hother⟩⟩
    := h
  obtain ⟨field, hshort, hlong⟩ := exists_field_of_spelling hspelling
  have hne : (other, twin) ≠ (body, value) := by
    intro heq
    obtain ⟨rfl, -⟩ := Prod.mk.inj heq
    exact ne_of_spelling hspelling (Option.some.inj (hbody.symm.trans hother))
  rw [ofJson?, fields?_repeated hmem hmemOther hne hbody hother hshort hlong]
  rfl

end LoggedContext

variable {x y v w : Value} {place : Place}

namespace Record

/-- The places at which a record has its context: under that name, or behind the other fields. -/
def ContextPlace : Place → Prop
  | .member name => name.text? = some "context"
  | .item index => index = 4

/-- A context is one of the fields of its record, if that has any. -/
theorem fields?_of_differ (hplace : ContextPlace place) (h : Value.Differ x y [place] v w) :
    (v.fields? layout = none ∧ w.fields? layout = none) ∨
      ∃ first last : Fields, "context" ∉ first.map (·.1) ∧
        v.fields? layout = some (first ++ ("context", x) :: last) ∧
        w.fields? layout = some (first ++ ("context", y) :: last) := by
  cases h with
  | item before after h =>
    cases h
    match before, hplace with
    | [kind, status, entryId, t], _ =>
      cases after with
      | nil =>
        refine .inr ⟨[("kind", kind), ("status", status), ("entry_id", entryId), ("t", t)], [], ?_,
          rfl, rfl⟩
        show "context" ∉ ["kind", "status", "entry_id", "t"]
        decide
      | cons item after =>
        have hlong (x : Value) : (Value.array ([kind, status, entryId, t] ++
            x :: item :: after)).fields? layout = none := by
          simp [Value.fields?, layout]
        exact .inl ⟨hlong x, hlong y⟩
  | member before after name h =>
    cases h
    have hfield : (layout.find? fun field => field.answersTo "context") =
        some { name := "context" } := by decide
    rcases fields?_middle hplace hfield before after with hnone | ⟨first, last, hfirst, hsome⟩
    · exact .inl ⟨hnone x, hnone y⟩
    · exact .inr ⟨first, last, hfirst, hsome x, hsome y⟩

/-- A record is read through its context. -/
theorem readThrough_context (hplace : ContextPlace place) (h : Value.Differ x y [place] v w)
    (hx : x ≠ .null) (hy : y ≠ .null) :
    ReadThrough (LoggedContext.ofJson? x) (LoggedContext.ofJson? y) (ofJson? v) (ofJson? w) := by
  rw [ofJson?, ofJson?]
  rcases fields?_of_differ hplace h with ⟨hv, hw⟩ | ⟨first, last, hfirst, hv, hw⟩
  · rw [hv, hw]
    exact .none
  · have hother (name : String) (hne : name ≠ "context") {α : Type} (read : Reader α) :
        Fields.optional (first ++ ("context", x) :: last) name read =
          Fields.optional (first ++ ("context", y) :: last) name read :=
      Fields.optional_middle_of_ne hne read
    rw [hv, hw]
    simp only [Option.bind_eq_bind, Option.bind_some, hother "kind" (by decide),
      hother "status" (by decide), hother "entry_id" (by decide), hother "t" (by decide),
      Fields.optional_middle hfirst hx, Fields.optional_middle hfirst hy]
    exact .under _ fun kind => .under _ fun status => .under _ fun entryId => .under _ fun t =>
      (ReadThrough.map some).bind _

end Record

namespace Ledger

/-- The places at which a ledger file has the context of one of its records. -/
inductive ContextPath : List Place → Prop
  | bare (index : Nat) {place : Place} (h : Record.ContextPlace place) :
    ContextPath [.item index, place]
  | wrapped {name : Body} (hname : name.text? = some "entries") (index : Nat) {place : Place}
    (h : Record.ContextPlace place) : ContextPath [.member name, .item index, place]

/-- A list of records is read through the context of any of them. -/
theorem readThrough_records (hplace : Record.ContextPlace place)
    (h : Value.Differ x y [place] v w) (hx : x ≠ .null) (hy : y ≠ .null)
    (before after : List Value) :
    ReadThrough (LoggedContext.ofJson? x) (LoggedContext.ofJson? y)
      ((before ++ v :: after).mapM Record.ofJson?)
      ((before ++ w :: after).mapM Record.ofJson?) := by
  have hrecord := Record.readThrough_context hplace h hx hy
  rw [List.mapM_append, List.mapM_append, List.mapM_cons, List.mapM_cons]
  exact .under _ fun _ => (hrecord.bind _).bind _

/-- A ledger is read through the context of any of its records. -/
theorem readThrough_context {path : List Place} (hpath : ContextPath path)
    (h : Value.Differ x y path v w) (hx : x ≠ .null) (hy : y ≠ .null) :
    ReadThrough (LoggedContext.ofJson? x) (LoggedContext.ofJson? y) (ofJson? v) (ofJson? w) := by
  cases hpath with
  | bare index hplace =>
    cases h with
    | item before after h => exact readThrough_records hplace h hx hy before after
  | @wrapped name hname index place hplace =>
    cases h with
    | member before after _ h =>
      cases h with
      | item first last h =>
        by_cases hothers : ∀ member ∈ before ++ after, ¬ IsEntries member
        · rw [ofJson?_of_entries hname hothers, ofJson?_of_entries hname hothers]
          exact readThrough_records hplace h hx hy first last
        · simp only [not_forall, not_not] at hothers
          obtain ⟨member, hmem, hentries⟩ := hothers
          have hunfit (items : List Value) : Unfit (before ++ (name, .array items) :: after) :=
            unfit_of_isEntries hname hmem hentries
          rw [ofJson?_of_unfit (hunfit _), ofJson?_of_unfit (hunfit _)]
          exact .none

/-- Behind such a text a ledger file has the context of a record, within `depth` containers. -/
def AwaitsContext (text : String) (depth : Nat) : Prop :=
  ∃ stack, (State.value []).run? text.toList = some (.value stack) ∧
    ContextPath (places stack) ∧ stack.length = depth

variable {before text other : String} {depth : Nat} {members others : List Member}

/-- What the text of a ledger file says is read through the context of any record, if that is an
object and takes as much of the limits in both texts. -/
theorem readThrough_parse? (hbefore : AwaitsContext before depth)
    (htext : ofText? text = some (.object members)) (hother : ofText? other = some (.object others))
    (hlimits : (Value.object members).keepsLimits (nestingLimit - depth) =
      (Value.object others).keepsLimits (nestingLimit - depth)) (after : String) :
    ReadThrough (LoggedContext.ofJson? (.object members)) (LoggedContext.ofJson? (.object others))
      (parse? (before ++ text ++ after)) (parse? (before ++ other ++ after)) := by
  obtain ⟨stack, hrun, hpath, rfl⟩ := hbefore
  have hdiffer := differ_of_parse? hrun htext hother after.toList
    (State.mayFollow_object _ _ _) (State.mayFollow_object _ _ _)
  have hjoin (text : String) : ofText? (before ++ text ++ after) =
      Value.parse? (before.toList ++ (text.toList ++ after.toList)) := by
    rw [ofText?, String.toList_append, String.toList_append, List.append_assoc]
  rw [← hjoin, ← hjoin] at hdiffer
  rw [parse?_eq, parse?_eq]
  generalize ofText? (before ++ text ++ after) = first at hdiffer ⊢
  generalize ofText? (before ++ other ++ after) = second at hdiffer ⊢
  cases hdiffer with
  | none => exact .none
  | @some v w hdiffer =>
    have hkeeps : v.keepsLimits nestingLimit = w.keepsLimits nestingLimit :=
      hdiffer.keepsLimits_eq (by simpa [places] using hlimits)
    rw [Option.bind_some, Option.bind_some, hkeeps]
    split
    · exact readThrough_context hpath hdiffer (by simp) (by simp)
    · exact .none

/-- The names in a context of a ledger file. Wherever the context stands in the file, and whatever
the file says besides, exchanging the short name of a field for the long one or the long one for
the short one leaves what is read as it was, and so does adding members that no field answers to,
that are within the limits of the reader where they stand and whose names and strings have texts. A
file in which a context has both names of a field is not read, whatever the values are. -/
theorem context_names {before text : String} {depth : Nat} {members : List Member}
    (hbefore : AwaitsContext before depth) (htext : ofText? text = some (.object members))
    (after : String) :
    (∀ (other : String) (others : List Member), ofText? other = some (.object others) →
      LoggedContext.Respelled members others ∨
        Extended LoggedContext.layout (nestingLimit - depth - 1) members others →
      ofFileText (before ++ other ++ after) = ofFileText (before ++ text ++ after)) ∧
    (LoggedContext.SpelledTwice members →
      ofFileText (before ++ text ++ after) = .error .json) := by
  refine ⟨?_, ?_⟩
  · intro other others hother hedit
    have hmembers : membersKeepLimits (nestingLimit - depth - 1) others =
        membersKeepLimits (nestingLimit - depth - 1) members :=
      hedit.elim LoggedContext.Respelled.membersKeepLimits_eq Extended.membersKeepLimits_eq
    have hcontext : LoggedContext.ofJson? (.object others) =
        LoggedContext.ofJson? (.object members) :=
      hedit.elim LoggedContext.Respelled.ofJson?_eq LoggedContext.ofJson?_of_extended
    have hlimits : (Value.object others).keepsLimits (nestingLimit - depth) =
        (Value.object members).keepsLimits (nestingLimit - depth) := by
      rw [keepsLimits, keepsLimits, hmembers]
    exact ofFileText_congr ((readThrough_parse? hbefore hother htext hlimits after).eq hcontext)
  · intro htwice
    have hread := readThrough_parse? hbefore htext htext rfl after
    exact ofFileText_eq_error_iff.2 (hread.eq_none htwice.ofJson?_eq_none)

/-- The context of the only record of a file names its class in short, then at length and with a
note beside it; with both names for no class at all the file is not read. -/
theorem context_names_of_lone_class :
    let before := "[\x7b\"context\":"
    ofFileText (before ++ "\x7b\"class\":5\x7d" ++ "\x7d]") =
        .ok [{ context := some { classId := some 5 } }] ∧
      ofFileText (before ++ "\x7b\"class_id\":5\x7d" ++ "\x7d]") =
        ofFileText (before ++ "\x7b\"class\":5\x7d" ++ "\x7d]") ∧
      ofFileText (before ++ "\x7b\"note\":null,\"class\":5\x7d" ++ "\x7d]") =
        ofFileText (before ++ "\x7b\"class\":5\x7d" ++ "\x7d]") ∧
      ofFileText (before ++ "\x7b\"class\":null,\"class_id\":null\x7d" ++ "\x7d]") =
        .error .json := by
  intro before
  have hbefore : AwaitsContext before 2 := by
    refine ⟨[.object [] (Body.ofText "context"), .array []], ?_,
      .bare 0 (Body.text?_ofText "context"), rfl⟩
    have htext : before.toList =
        '[' :: '\x7b' :: ((Token.string (Body.ofText "context")).chars ++ [':']) := by
      decide +kernel
    rw [htext, State.run?_of_scan? .openArray _ rfl]
    refine (State.run?_of_scan? .openObject _ rfl).trans ?_
    refine (State.run?_nameColon (State.awaitsName_firstName _ _)).trans ?_
    rw [State.run?]
  have hread (text : String) (members : List (String × Value))
      (htext : (ofMembers members).compactText = text)
      (hwritten : ∀ member ∈ members, member.2.Written) :
      ofText? text = some (ofMembers members) :=
    htext ▸ ofText?_compactText (written_ofMembers hwritten)
  have hshort := hread "\x7b\"class\":5\x7d" [("class", ofNat 5)] (by decide +kernel)
    (List.forall_mem_singleton.2 (written_ofNat 5))
  have hlong := hread "\x7b\"class_id\":5\x7d" [("class_id", ofNat 5)] (by decide +kernel)
    (List.forall_mem_singleton.2 (written_ofNat 5))
  have hnote := hread "\x7b\"note\":null,\"class\":5\x7d" [("note", .null), ("class", ofNat 5)]
    (by decide +kernel) (by simp [written_ofNat, Written])
  have hboth := hread "\x7b\"class\":null,\"class_id\":null\x7d"
    [("class", .null), ("class_id", .null)] (by decide +kernel) (by simp [Written])
  have hcontext := context_names hbefore hshort "\x7d]"
  refine ⟨by decide +kernel, hcontext.1 _ _ hlong (.inl ?_), hcontext.1 _ _ hnote (.inr ?_),
    (context_names hbefore hboth "\x7d]").2 ?_⟩
  · exact .mk (.inl (List.mem_cons_self ..)) [] [] (Body.text?_ofText _) (Body.text?_ofText _) _
  · refine .add (fun name hname => ?_) ⟨Nat.zero_le _, by simp [numbers]⟩
      (Body.paired_ofText "note") (by simp [Value.Paired, bodies]) (.keep _ .nil)
    rw [Body.text?_ofText, Option.some.injEq] at hname
    exact hname ▸ by decide
  · exact ⟨"class", "class_id", List.mem_cons_self ..,
      ⟨_, List.mem_cons_self .., Body.text?_ofText _⟩,
      ⟨_, List.mem_cons_of_mem _ (List.mem_cons_self ..), Body.text?_ofText _⟩⟩

/-- Half a pair of code units in a member that no field answers to makes the file unreadable that
was read without the member, although its value is within the limits of nesting and of numbers. -/
theorem context_unreadable_beside_half_a_pair :
    let before := "[\x7b\"context\":"
    let note := ("\"note\"", "\"\\ud800\"")
    objectText [("\"class\"", "5"), note] = "\x7b\"class\":5,\"note\":\"\\ud800\"\x7d" ∧
      (∃ member, ReadsAs note member ∧ member.1.text? = some "note" ∧
        (∀ field ∈ LoggedContext.layout, field.answersTo "note" = false) ∧
        member.2.Within (nestingLimit - 3)) ∧
      ofFileText (before ++ objectText [("\"class\"", "5")] ++ "\x7d]") =
        .ok [{ context := some { classId := some 5 } }] ∧
      ofFileText (before ++ objectText [("\"class\"", "5"), note] ++ "\x7d]") = .error .json := by
  intro before note
  have hnote : ReadsAs note (Body.ofText "note", .string [.unit 0xD800]) :=
    ⟨ofText?_of_scan?_string (by decide +kernel), ofText?_of_scan?_string (by decide +kernel)⟩
  exact ⟨by decide +kernel,
    ⟨_, hnote, Body.text?_ofText "note", by decide, Nat.zero_le _, by simp [numbers]⟩,
    by decide +kernel, by decide +kernel⟩

end Ledger

end LatticeLedger
