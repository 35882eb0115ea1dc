/-
Records in JSON. A record is an object, where a field may stand anywhere but
only once and other members are skipped, or an array of its fields in
declared order, where trailing fields may be missing. Either way reading
gives one list: for each declared field the value that stands for it, or
nothing. What a missing field means is said by the three field readers
`required`, `optional` and `defaulted`.

A tagged record names its form in a member `kind`, or in the first item of
an array.
-/
import PartPlan.Json.Basic
import PartPlan.SortedMap

namespace PartPlan.Json

/-- The contents of a record. -/
inductive Body where
  | members (ms : List (String × Json))
  | items (vs : List Json)

/-- The contents of a value that has the shape of a record. -/
def body? : Json → Option Body
  | .obj ms => some (.members ms)
  | .arr vs => some (.items vs)
  | _ => none

/-- The member with a name, if there is one; a repeated member is refused. -/
def sole? (name : String) (ms : List (String × Json)) : Option (Option Json) :=
  match ms.filter (·.1 == name) with
  | [] => some none
  | [m] => some (some m.2)
  | _ => none

/-- For each declared field the value that stands for it. -/
def Body.fields? (names : List String) : Body → Option (List (Option Json))
  | .members ms => names.mapM (sole? · ms)
  | .items vs =>
    if vs.length ≤ names.length then
      some (vs.map some ++ List.replicate (names.length - vs.length) none)
    else none

/-- The fields of a value that has the shape of a record. -/
def fields? (names : List String) (v : Json) : Option (List (Option Json)) := do
  (← v.body?).fields? names

variable {α : Type}

/-- A field that has to be there. -/
def required (read : Json → Option α) (v : Option Json) : Option α := v.bind read

/-- A field that may be missing or `null`. -/
def optional (read : Json → Option α) : Option Json → Option (Option α)
  | none | some .null => some none
  | some v => (read v).map some

/-- A field that stands for `value` when it is missing. -/
def defaulted (value : α) (read : Json → Option α) : Option Json → Option α
  | none => some value
  | some v => read v

/-- The value itself, if every part of it denotes something. -/
def whole? (v : Json) : Option Json := if v.readable then some v else none

-- ============================================================ keywords

/-- What a name stands for. -/
def choice? (choices : List (String × α)) (name : String) : Option α :=
  (choices.find? (·.1 == name)).map (·.2)

/-- A keyword: a string, or an object with the keyword as its only key and
`null` as its value. -/
def keyword? (choices : List (String × α)) : Json → Option α
  | .str s => choice? choices s
  | .obj [(s, .null)] => choice? choices s
  | _ => none

/-- A keyword inside a tagged record, where the value of the only key may
also be an empty object. -/
def innerKeyword? (choices : List (String × α)) : Json → Option α
  | .obj [(s, .obj [])] => choice? choices s
  | v => keyword? choices v

-- ================================================================ tags

/-- How a tag may be written: by its name only, or also by its position
among the forms, as everywhere inside another tagged record. -/
inductive TagStyle where
  | named
  | namedOrNumbered
  deriving DecidableEq, Repr

/-- The form a tag stands for. -/
def tag? (style : TagStyle) (forms : List (String × α)) : Json → Option α
  | .str s => choice? forms s
  | .int n =>
    if style = .namedOrNumbered ∧ 0 ≤ n then (forms[n.toNat]?).map (·.2) else none
  | _ => none

/-- The form and the contents of a tagged record. -/
def tagged? (style : TagStyle) (forms : List (String × α)) : Json → Option (α × Body)
  | .obj ms => do some (← tag? style forms (← (← sole? "kind" ms)), .members ms)
  | .arr (t :: vs) => do some (← tag? style forms t, .items vs)
  | _ => none

/-- The form of a tagged record together with its declared fields. -/
def taggedFields? (style : TagStyle) (forms : List (String × α)) (names : α → List String)
    (v : Json) : Option (α × List (Option Json)) := do
  let (form, body) ← tagged? style forms v
  some (form, ← body.fields? (names form))

-- =============================================== fields are smaller parts

theorem sizeOf_lt_of_mem_members {k : String} {v : Json} {ms : List (String × Json)}
    (h : (k, v) ∈ ms) : sizeOf v < sizeOf ms := by
  have := List.sizeOf_lt_of_mem h
  simp only [Prod.mk.sizeOf_spec] at this
  omega

theorem mem_of_sole? {name : String} {ms : List (String × Json)} {v : Json}
    (h : sole? name ms = some (some v)) : (name, v) ∈ ms := by
  unfold sole? at h
  split at h
  · simp at h
  · next m hm =>
    have : m ∈ ms.filter (·.1 == name) := by simp [hm]
    obtain ⟨hms, hname⟩ := List.mem_filter.1 this
    have hname : m.1 = name := by simpa using hname
    have hv : m.2 = v := by simpa using h
    rw [← hname, ← hv]
    exact hms
  · simp at h

theorem exists_of_mem_mapM {α β : Type} {f : α → Option β} {l : List α} {ys : List β} {y : β}
    (h : l.mapM f = some ys) (hy : y ∈ ys) : ∃ x ∈ l, f x = some y := by
  induction l generalizing ys with
  | nil =>
    obtain rfl : [] = ys := by simpa using h
    simp at hy
  | cons x l ih =>
    simp only [List.mapM_cons, Option.bind_eq_bind, Option.bind_eq_some_iff] at h
    obtain ⟨z, hz, zs, hzs, h⟩ := h
    obtain rfl : z :: zs = ys := by simpa using h
    rcases List.mem_cons.1 hy with rfl | hy
    · exact ⟨x, List.mem_cons_self, hz⟩
    · obtain ⟨w, hw, hf⟩ := ih hzs hy
      exact ⟨w, List.mem_cons_of_mem _ hw, hf⟩

/-- Whether a value stands among the contents of a record. -/
def Body.Holds (v : Json) : Body → Prop
  | .members ms => ∃ name, (name, v) ∈ ms
  | .items vs => v ∈ vs

theorem Body.holds_of_fields? {b : Body} {names : List String} {fs : List (Option Json)}
    {v : Json} (h : b.fields? names = some fs) (hv : some v ∈ fs) : b.Holds v := by
  cases b with
  | members ms =>
    obtain ⟨name, -, hn⟩ := exists_of_mem_mapM h hv
    exact ⟨name, mem_of_sole? hn⟩
  | items vs =>
    simp only [fields?] at h
    split at h
    · obtain rfl := Option.some.inj h
      have : v ∈ vs := by simpa using hv
      exact this
    · simp at h

/-- A declared field of a tagged record is smaller than the record. -/
theorem sizeOf_lt_of_taggedFields? {style : TagStyle} {forms : List (String × α)}
    {names : α → List String} {v w : Json} {form : α} {fs : List (Option Json)}
    (h : taggedFields? style forms names v = some (form, fs)) (hw : some w ∈ fs) :
    sizeOf w < sizeOf v := by
  simp only [taggedFields?, Option.bind_eq_bind, Option.bind_eq_some_iff, Prod.exists] at h
  obtain ⟨a, body, htag, fs', hfs, h⟩ := h
  obtain ⟨rfl, rfl⟩ : a = form ∧ fs' = fs := by simpa using h
  have held := Body.holds_of_fields? hfs hw
  unfold tagged? at htag
  split at htag
  · simp only [Option.bind_eq_bind, Option.bind_eq_some_iff] at htag
    obtain ⟨_, _, _, _, _, _, htag⟩ := htag
    obtain ⟨-, rfl⟩ : _ ∧ _ = body := by simpa using htag
    obtain ⟨name, held⟩ := held
    have := sizeOf_lt_of_mem_members held
    simp only [Json.obj.sizeOf_spec]
    omega
  · simp only [Option.bind_eq_bind, Option.bind_eq_some_iff] at htag
    obtain ⟨_, _, htag⟩ := htag
    obtain ⟨-, rfl⟩ : _ ∧ _ = body := by simpa using htag
    have := List.sizeOf_lt_of_mem held
    simp only [Json.arr.sizeOf_spec, List.cons.sizeOf_spec]
    omega
  · simp at htag

-- ============================================================== writing

/-- A record with its fields in order; a field without a value is left
out. -/
def record (fields : List (String × Option Json)) : Json :=
  .obj (fields.filterMap fun (name, v) => v.map fun v => (name, v))

/-- A tagged record: its tag and then its fields. -/
def taggedRecord (tag : String) (fields : List (String × Option Json)) : Json :=
  record (("kind", some (.str tag)) :: fields)

/-- A list as a field that is left out when it is empty. -/
def nonEmpty (items : List Json) : Option Json :=
  if items.isEmpty then none else some (.arr items)

-- ================================================================= maps

/-- An object as a map, each value read by `read`; of several members with
one key the last stays. -/
def map? (read : Json → Option α) : Json → Option (SortedMap α)
  | .obj ms => SortedMap.ofList <$> ms.mapM fun (k, v) => (read v).map fun v => (k, v)
  | _ => none

/-- A map as an object, its members in key order. -/
def ofMap (write : α → Json) (m : SortedMap α) : Json :=
  .obj (m.entries.map fun (k, v) => (k, write v))

mutual
/-- The value with the members of every object in key order, the last of
several with one key. -/
def canonical : Json → Json
  | .arr items => .arr (canonicalItems items)
  | .obj ms => .obj (SortedMap.ofList (canonicalMembers ms)).entries
  | v => v

/-- `canonical` on the items of an array. -/
def canonicalItems : List Json → List Json
  | [] => []
  | v :: vs => v.canonical :: canonicalItems vs

/-- `canonical` on the values of members. -/
def canonicalMembers : List (String × Json) → List (String × Json)
  | [] => []
  | (k, v) :: ms => (k, v.canonical) :: canonicalMembers ms
end

end PartPlan.Json
