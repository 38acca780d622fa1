import MediaCache.Proofs.Data.Merged
import MediaCache.Proofs.Store.Positions

/-!
# The union of shapes

Shapes are compatible if no position has an object in one and a list in the other. On compatible shapes
the union is a join: it selects what either of them selects. So the shape of a list of compatible
elements does not depend on their order, and it selects the fields that some element has.
-/

namespace MediaCache

namespace Shape

variable {a b c : Shape}

/-! ## Kinds -/

/-- A leaf gives way to anything. -/
def Kind.join : Kind → Kind → Kind
  | .leaf, k => k
  | k, _ => k

def clashes (x y : Option Kind) : Bool :=
  x == some .object && y == some .list || x == some .list && y == some .object

@[simp]
theorem clashes_self (x : Option Kind) : clashes x x = false := by
  cases x with
  | none => rfl
  | some k => cases k <;> rfl

theorem clashes_symm (x y : Option Kind) : clashes x y = clashes y x := by
  unfold clashes
  rw [Bool.or_comm, Bool.and_comm (x == some .list), Bool.and_comm (x == some .object)]

@[simp]
theorem merge_join_self (x : Option Kind) : x.merge Kind.join x = x := by
  cases x with
  | none => rfl
  | some k => cases k <;> rfl

theorem merge_join_comm {x y : Option Kind} (h : clashes x y = false) :
    x.merge Kind.join y = y.merge Kind.join x := by
  cases x with
  | none => cases y <;> rfl
  | some k =>
    cases y with
    | none => rfl
    | some l => cases k <;> cases l <;> first | rfl | cases h

theorem merge_join_assoc (x y z : Option Kind) :
    (x.merge Kind.join y).merge Kind.join z = x.merge Kind.join (y.merge Kind.join z) := by
  cases x with
  | none => rw [Option.merge_none_left, Option.merge_none_left]
  | some k =>
    cases y with
    | none => rw [Option.merge_none_left, Option.merge_none_right]
    | some l =>
      cases z with
      | none => rw [Option.merge_none_right, Option.merge_none_right]
      | some m => cases k <;> rfl

theorem clashes_merge_join {x y z : Option Kind} (hx : clashes x z = false)
    (hy : clashes y z = false) : clashes (x.merge Kind.join y) z = false := by
  cases x with
  | none => rwa [Option.merge_none_left]
  | some k =>
    cases y with
    | none => exact hx
    | some l =>
      cases k with
      | leaf => exact hy
      | _ => exact hx

/-! ## Compatible shapes -/

def Compatible (a b : Shape) : Prop := ∀ path, clashes (a.kindAt? path) (b.kindAt? path) = false

theorem Compatible.refl (a : Shape) : Compatible a a := fun _ => clashes_self _

theorem Compatible.symm (h : Compatible a b) : Compatible b a := by
  intro path
  rw [clashes_symm]
  exact h path

theorem compatible_leaf (b : Shape) : Compatible leaf b := by
  intro path
  cases path with
  | nil => cases b <;> rfl
  | cons step path => rfl

theorem Compatible.part? (h : Compatible a b) {step : Step} {s t : Shape} (hs : a.part? step = some s)
    (ht : b.part? step = some t) : Compatible s t := by
  intro path
  have hpath := h (step :: path)
  rw [kindAt?, kindAt?, hs, ht] at hpath
  exact hpath

theorem compatible_list (h : Compatible a b) : Compatible (list a) (list b) := by
  intro path
  cases path with
  | nil => rfl
  | cons step path =>
    cases step with
    | field key => rfl
    | element => exact h path

theorem compatible_object {fields others : List (String × Shape)}
    (h : ∀ e ∈ fields, ∀ f ∈ others, e.1 = f.1 → Compatible e.2 f.2) :
    Compatible (object fields) (object others) := by
  intro path
  cases path with
  | nil => rfl
  | cons step path =>
    rw [kindAt?, kindAt?]
    cases step with
    | field key =>
      rw [part?, part?]
      cases hs : Assoc.get? key fields with
      | none => rfl
      | some s =>
        cases ht : Assoc.get? key others with
        | none => exact clashes_symm _ none
        | some t => exact h _ (Assoc.mem_of_get? hs) _ (Assoc.mem_of_get? ht) rfl path
    | element => rfl

/-! ## Union -/

theorem unionFields_eq (present selected : List (String × Shape)) :
    unionFields present selected = Assoc.mergeWith union present selected := by
  induction selected generalizing present with
  | nil => rw [unionFields, Assoc.mergeWith]
  | cons e rest ih =>
    obtain ⟨key, shape⟩ := e
    rw [unionFields, ih, Assoc.mergeWith]
    cases Assoc.get? key present with
    | none => rfl
    | some w => rfl

@[simp]
theorem union_leaf_left (b : Shape) : union leaf b = b := by
  cases b with
  | leaf => rw [union]
  | object fields =>
    rw [union]
    rintro present ⟨⟩
  | list element =>
    rw [union]
    rintro present ⟨⟩

@[simp]
theorem union_leaf_right (a : Shape) : union a leaf = a := by rw [union]

theorem kind_union (h : clashes (some a.kind) (some b.kind) = false) :
    (union a b).kind = a.kind.join b.kind := by
  cases b with
  | leaf =>
    rw [union_leaf_right]
    cases a <;> rfl
  | object fields =>
    cases a with
    | leaf => rw [union_leaf_left]; rfl
    | object present => rw [union]; rfl
    | list element => cases h
  | list element =>
    cases a with
    | leaf => rw [union_leaf_left]; rfl
    | object present => cases h
    | list present => rw [union]; rfl

@[simp]
theorem part?_leaf (step : Step) : leaf.part? step = none := by
  cases step <;> rfl

theorem part?_union (hb : b.Sorted) (h : clashes (some a.kind) (some b.kind) = false) (step : Step) :
    (union a b).part? step = (a.part? step).merge union (b.part? step) := by
  cases b with
  | leaf => rw [union_leaf_right, part?_leaf, Option.merge_none_right]
  | object fields =>
    cases a with
    | leaf => rw [union_leaf_left, part?_leaf, Option.merge_none_left]
    | object present =>
      rw [union, unionFields_eq]
      cases step with
      | field key => exact Assoc.get?_mergeWith present hb.1.nodup_keys key
      | element => rfl
    | list element => cases h
  | list element =>
    cases a with
    | leaf => rw [union_leaf_left, part?_leaf, Option.merge_none_left]
    | object present => cases h
    | list present =>
      rw [union]
      cases step <;> rfl

/-- The induction is on the path. At each step both shapes have a part, and then their parts are
compatible, or only one has. -/
theorem kindAt?_union (hb : b.Sorted) (h : Compatible a b) (path : List Step) :
    (union a b).kindAt? path = (a.kindAt? path).merge Kind.join (b.kindAt? path) := by
  induction path generalizing a b with
  | nil =>
    rw [kindAt?, kindAt?, kindAt?, kind_union (h [])]
    rfl
  | cons step path ih =>
    rw [kindAt?, kindAt?, kindAt?, part?_union hb (h [])]
    cases hs : a.part? step with
    | none => rw [Option.merge_none_left, Option.bind_none, Option.merge_none_left]
    | some s =>
      cases ht : b.part? step with
      | none => rw [Option.merge_none_right, Option.bind_none, Option.merge_none_right]
      | some t =>
        rw [Option.merge_some_some]
        exact ih (sorted_part? hb ht) (h.part? hs ht)

theorem union_self (h : a.Sorted) : union a a = a := by
  apply eq_of_kindAt? _ _ (sorted_union a h a h) h
  intro path
  rw [kindAt?_union h (Compatible.refl a), merge_join_self]

theorem union_comm (ha : a.Sorted) (hb : b.Sorted) (h : Compatible a b) : union a b = union b a := by
  apply eq_of_kindAt? _ _ (sorted_union a ha b hb) (sorted_union b hb a ha)
  intro path
  rw [kindAt?_union hb h, kindAt?_union ha h.symm, merge_join_comm (h path)]

theorem compatible_union (hb : b.Sorted) (hab : Compatible a b) (hac : Compatible a c)
    (hbc : Compatible b c) : Compatible (union a b) c := by
  intro path
  rw [kindAt?_union hb hab]
  exact clashes_merge_join (hac path) (hbc path)

theorem union_assoc (ha : a.Sorted) (hb : b.Sorted) (hc : c.Sorted) (hab : Compatible a b)
    (hac : Compatible a c) (hbc : Compatible b c) :
    union (union a b) c = union a (union b c) := by
  have hleft : Compatible (union a b) c := compatible_union hb hab hac hbc
  have hright : Compatible a (union b c) :=
    (compatible_union hc hbc hab.symm hac.symm).symm
  have hsorted := sorted_union b hb c hc
  apply eq_of_kindAt? _ _ (sorted_union _ (sorted_union a ha b hb) c hc) (sorted_union a ha _ hsorted)
  intro path
  rw [kindAt?_union hc hleft, kindAt?_union hb hab, kindAt?_union hsorted hright,
    kindAt?_union hc hbc, merge_join_assoc]

theorem union_right_comm (ha : a.Sorted) (hb : b.Sorted) (hc : c.Sorted) (hab : Compatible a b)
    (hac : Compatible a c) (hbc : Compatible b c) :
    union (union a b) c = union (union a c) b := by
  rw [union_assoc ha hb hc hab hac hbc, union_comm hb hc hbc, union_assoc ha hc hb hac hab hbc.symm]

theorem selects_union (hb : b.Sorted) (h : Compatible a b) (way : List Step) (key : String) :
    Selects (union a b) way key ↔ Selects a way key ∨ Selects b way key := by
  unfold Selects
  rw [kindAt?_union hb h, Option.isSome_merge, Bool.or_eq_true]

/-! ## Lists -/

/-- The shapes of any two elements are compatible. -/
def FitTogether (items : List Json) : Prop :=
  ∀ v ∈ items, ∀ w ∈ items, Compatible (ofData v) (ofData w)

theorem FitTogether.tail {v : Json} {items : List Json} (h : FitTogether (v :: items)) :
    FitTogether items :=
  fun w hw u hu => h w (List.mem_cons_of_mem v hw) u (List.mem_cons_of_mem v hu)

/-- What was seen stays compatible with the elements to come when one more is seen. -/
theorem compatible_seen {seen : Shape} {v : Json} {items : List Json} (hv : v.Sorted)
    (hfit : FitTogether (v :: items)) (hseen : ∀ w ∈ v :: items, Compatible seen (ofData w)) :
    ∀ w ∈ items, Compatible (union seen (ofData v)) (ofData w) := by
  intro w hw
  have hmem := List.mem_cons_of_mem v hw
  exact compatible_union (sorted_ofData v hv) (hseen v List.mem_cons_self) (hseen w hmem)
    (hfit v List.mem_cons_self w hmem)

theorem selects_ofItems {seen : Shape} {items : List Json} (hsorted : ∀ v ∈ items, v.Sorted)
    (hfit : FitTogether items) (hseen : ∀ v ∈ items, Compatible seen (ofData v)) (way : List Step)
    (key : String) :
    Selects (ofItems seen items) way key ↔
      Selects seen way key ∨ ∃ v ∈ items, Selects (ofData v) way key := by
  induction items generalizing seen with
  | nil =>
    rw [ofItems]
    simp
  | cons v items ih =>
    obtain ⟨hv, hrest⟩ := List.forall_mem_cons.1 hsorted
    rw [ofItems, ih hrest hfit.tail (compatible_seen hv hfit hseen),
      selects_union (sorted_ofData v hv) (hseen v List.mem_cons_self), List.exists_mem_cons_iff, or_assoc]

theorem ofItems_perm {items others : List Json} (hperm : others.Perm items) {seen : Shape}
    (hsorted : ∀ v ∈ items, v.Sorted) (hfit : FitTogether items) (h : seen.Sorted)
    (hseen : ∀ v ∈ items, Compatible seen (ofData v)) :
    ofItems seen others = ofItems seen items := by
  induction hperm generalizing seen with
  | nil => rfl
  | cons v _ ih =>
    obtain ⟨hv, hrest⟩ := List.forall_mem_cons.1 hsorted
    rw [ofItems, ofItems]
    exact ih hrest hfit.tail (sorted_union seen h _ (sorted_ofData v hv))
      (compatible_seen hv hfit hseen)
  | swap v w items =>
    obtain ⟨hv, hrest⟩ := List.forall_mem_cons.1 hsorted
    obtain ⟨hw, -⟩ := List.forall_mem_cons.1 hrest
    have hsecond : w ∈ v :: w :: items := List.mem_cons_of_mem v List.mem_cons_self
    rw [ofItems, ofItems, ofItems, ofItems,
      union_right_comm h (sorted_ofData w hw) (sorted_ofData v hv) (hseen w hsecond)
        (hseen v List.mem_cons_self) (hfit w hsecond v List.mem_cons_self)]
  | trans _ hsecond ihfirst ihsecond =>
    have hmem {v : Json} := (hsecond.mem_iff (a := v)).1
    rw [ihfirst (fun v hv => hsorted v (hmem hv))
      (fun v hv w hw => hfit v (hmem hv) w (hmem hw)) h fun v hv => hseen v (hmem hv)]
    exact ihsecond hsorted hfit h hseen

/-! ## Data -/

theorem get?_ofFields (key : String) (fields : List (String × Json)) :
    Assoc.get? key (ofFields fields) =
      if key = "__typename" then none else (Assoc.get? key fields).map ofData := by
  induction fields with
  | nil =>
    rw [ofFields]
    split <;> rfl
  | cons e rest ih =>
    obtain ⟨name, v⟩ := e
    rw [ofFields]
    by_cases hkey : key = name
    · subst hkey
      rw [Assoc.get?_cons_self]
      split
      · rename_i htypename
        rw [ih, if_pos htypename]
      · exact Assoc.get?_cons_self key _ _
    · rw [Assoc.get?_cons_of_ne hkey]
      split
      · exact ih
      · rw [Assoc.get?_cons_of_ne hkey]
        exact ih

theorem part?_field_ofData (key : String) (v : Json) :
    (ofData v).part? (.field key) =
      if key = "__typename" then none else (v.field? key).map ofData := by
  cases v with
  | object fields =>
    rw [ofData]
    exact get?_ofFields key fields
  | array items =>
    rw [ofData]
    split <;> rfl
  | _ => split <;> rfl

theorem selects_own (v : Json) (key : String) :
    Selects (ofData v) [] key ↔ key ≠ "__typename" ∧ (v.field? key).isSome = true := by
  rw [selects_nil, part?_field_ofData]
  by_cases hkey : key = "__typename"
  · simp [hkey]
  · simp [hkey]

theorem selects_element {items : List Json} (hsorted : ∀ v ∈ items, v.Sorted)
    (hfit : FitTogether items) (way : List Step) (key : String) :
    Selects (ofData (.array items)) (.element :: way) key ↔
      ∃ v ∈ items, Selects (ofData v) way key := by
  have hitems : Selects (ofItems leaf items) way key ↔ ∃ v ∈ items, Selects (ofData v) way key := by
    rw [selects_ofItems hsorted hfit fun v _ => compatible_leaf (ofData v)]
    exact or_iff_right (not_selects_leaf way key)
  rw [ofData, selects_cons, ← hitems]
  simp [part?]

theorem selects_list {items : List Json} (hsorted : ∀ v ∈ items, v.Sorted) (hfit : FitTogether items)
    (way : List Step) (key : String) :
    Selects (ofData (.array items)) way key ↔
      ∃ rest, way = .element :: rest ∧ ∃ v ∈ items, Selects (ofData v) rest key := by
  cases way with
  | nil => simp [selects_nil, ofData, part?]
  | cons step rest =>
    cases step with
    | field name => simp [selects_cons, ofData, part?]
    | element => simp [selects_element hsorted hfit]

theorem selects_own_of_element {items : List Json} (hsorted : ∀ v ∈ items, v.Sorted)
    (hfit : FitTogether items) (key : String) :
    Selects (ofData (.array items)) [.element] key ↔
      key ≠ "__typename" ∧ ∃ v ∈ items, (v.field? key).isSome = true := by
  rw [selects_element hsorted hfit]
  constructor
  · rintro ⟨v, hv, hselects⟩
    obtain ⟨hkey, hfield⟩ := (selects_own v key).1 hselects
    exact ⟨hkey, v, hv, hfield⟩
  · rintro ⟨hkey, v, hv, hfield⟩
    exact ⟨v, hv, (selects_own v key).2 ⟨hkey, hfield⟩⟩

end Shape

namespace Json

/-- The data has a field with this key at a position, in at least one of the elements of each list on the
way. -/
def HasField (v : Json) : List Shape.Step → String → Prop
  | [], key => key ≠ "__typename" ∧ (v.field? key).isSome = true
  | .field name :: way, key =>
    name ≠ "__typename" ∧ ∃ w, v.field? name = some w ∧ w.HasField way key
  | .element :: way, key => ∃ items, v = array items ∧ ∃ w ∈ items, w.HasField way key

/-- The elements of every list in the data fit together. -/
def Homogeneous (v : Json) : Prop := ∀ items, array items ∈ v.parts → Shape.FitTogether items

theorem Homogeneous.field? {v w : Json} (h : v.Homogeneous) {key : String}
    (hw : v.field? key = some w) : w.Homogeneous := by
  cases v with
  | object fields =>
    intro items hpart
    exact h items (mem_parts_object.2 (.inr ⟨_, Assoc.mem_of_get? hw, hpart⟩))
  | _ => cases hw

theorem Homogeneous.item {items : List Json} (h : (array items).Homogeneous) {w : Json}
    (hw : w ∈ items) : w.Homogeneous :=
  fun others hpart => h others (mem_parts_array.2 (.inr ⟨w, hw, hpart⟩))

theorem Homogeneous.fitTogether {items : List Json} (h : (array items).Homogeneous) :
    Shape.FitTogether items :=
  h items (mem_parts_array.2 (.inl rfl))

end Json

namespace Shape

theorem selects_field {v : Json} {name key : String} {way : List Step} :
    Selects (ofData v) (.field name :: way) key ↔
      name ≠ "__typename" ∧ ∃ w, v.field? name = some w ∧ Selects (ofData w) way key := by
  rw [selects_cons, part?_field_ofData]
  by_cases hname : name = "__typename"
  · simp [hname]
  · simp [hname]

/-- In data whose lists fit together nothing is lost. -/
theorem selects_ofData {v : Json} (hsorted : v.Sorted) (h : v.Homogeneous) (way : List Step)
    (key : String) : Selects (ofData v) way key ↔ v.HasField way key := by
  induction way generalizing v with
  | nil =>
    rw [selects_own]
    rfl
  | cons step way ih =>
    cases step with
    | field name =>
      rw [selects_field, Json.HasField]
      refine and_congr_right fun _ => exists_congr fun w => and_congr_right fun hw => ?_
      exact ih (hsorted.field? hw) (h.field? hw)
    | element =>
      cases v with
      | array items =>
        have hitems : ∀ w ∈ items, w.Sorted := Json.sortedItems_iff.1 hsorted
        have hlist : (∃ w ∈ items, Selects (ofData w) way key) ↔ ∃ w ∈ items, w.HasField way key :=
          exists_congr fun w => and_congr_right fun hw => ih (hitems w hw) (h.item hw)
        rw [selects_element hitems h.fitTogether, hlist, Json.HasField]
        simp
      -- Objects have no elements.
      | object fields => simp [selects_cons, ofData, part?, Json.HasField]
      | _ => simp [selects_cons, ofData, part?, Json.HasField]

/-- The laws of a join for compatible shapes, and what they say about the shape of a list. -/
theorem union_join (ha : a.Sorted) (hb : b.Sorted) (hc : c.Sorted) (hab : Compatible a b)
    (hac : Compatible a c) (hbc : Compatible b c) :
    union a b = union b a ∧
      union (union a b) c = union a (union b c) ∧
      union a a = a ∧ union leaf a = a ∧ union a leaf = a ∧
      (∀ way key, Selects (union a b) way key ↔ Selects a way key ∨ Selects b way key) ∧
      Compatible (union a b) c ∧
      ∀ items : List Json, (∀ v ∈ items, v.Sorted) → FitTogether items →
        (∀ others : List Json, others.Perm items →
          ofData (.array others) = ofData (.array items)) ∧
        (∀ way key, Selects (ofData (.array items)) way key ↔
          ∃ rest, way = .element :: rest ∧ ∃ v ∈ items, Selects (ofData v) rest key) ∧
        (∀ key, Selects (ofData (.array items)) [.element] key ↔
          key ≠ "__typename" ∧ ∃ v ∈ items, (v.field? key).isSome = true) ∧
        ((∀ v ∈ items, v.Homogeneous) → ∀ way key,
          Selects (ofData (.array items)) (.element :: way) key ↔ ∃ v ∈ items, v.HasField way key) := by
  refine ⟨union_comm ha hb hab, union_assoc ha hb hc hab hac hbc, union_self ha, union_leaf_left a,
    union_leaf_right a, selects_union hb hab, compatible_union hb hab hac hbc, ?_⟩
  intro items hsorted hfit
  refine ⟨?_, selects_list hsorted hfit, selects_own_of_element hsorted hfit, ?_⟩
  · intro others hperm
    have hleaf : leaf.Sorted := trivial
    rw [ofData, ofData, ofItems_perm hperm hsorted hfit hleaf fun v _ => compatible_leaf (ofData v)]
  · intro hhomogeneous way key
    rw [selects_element hsorted hfit]
    refine exists_congr fun v => and_congr_right fun hv => ?_
    exact selects_ofData (hsorted v hv) (hhomogeneous v hv) way key

def untaggedRow : Json :=
  .object [("__typename", .string "Scene"), ("id", .string "1"), ("tags", .array []),
    ("title", .string "a")]

def taggedRow : Json :=
  .object [("__typename", .string "Scene"), ("id", .string "2"),
    ("tags", .array [.object [("name", .string "b")], .null])]

theorem ofData_untaggedRow :
    ofData untaggedRow = object [("id", leaf), ("tags", list leaf), ("title", leaf)] := by
  decide +kernel

theorem ofData_taggedRow :
    ofData taggedRow = object [("id", leaf), ("tags", list (object [("name", leaf)]))] := by
  decide +kernel

theorem compatible_rows : Compatible (ofData untaggedRow) (ofData taggedRow) := by
  rw [ofData_untaggedRow, ofData_taggedRow]
  apply compatible_object
  intro e he f hf hkey
  simp only [List.mem_cons, List.not_mem_nil, or_false] at he hf
  rcases he with rfl | rfl | rfl
  · exact compatible_leaf _
  · rcases hf with rfl | rfl
    · exact absurd hkey (by decide)
    · exact compatible_list (compatible_leaf _)
  · exact compatible_leaf _

theorem fitTogether_rows : FitTogether [untaggedRow, taggedRow] := by
  intro v hv w hw
  simp only [List.mem_cons, List.not_mem_nil, or_false] at hv hw
  rcases hv with rfl | rfl
  · rcases hw with rfl | rfl
    · exact Compatible.refl _
    · exact compatible_rows
  · rcases hw with rfl | rfl
    · exact compatible_rows.symm
    · exact Compatible.refl _

theorem homogeneous_rows : ∀ v ∈ [untaggedRow, taggedRow], v.Homogeneous := by
  have hlists : ∀ v ∈ [untaggedRow, taggedRow], ∀ items, .array items ∈ v.parts →
      items = [] ∨ items = [.object [("name", .string "b")], .null] := by
    simp [untaggedRow, taggedRow, Json.parts, Json.partsOfFields, Json.partsOfItems]
  intro v hv items hpart
  rcases hlists v hv items hpart with rfl | rfl
  · intro w hw
    exact absurd hw List.not_mem_nil
  · intro w hw u hu
    simp only [List.mem_cons, List.not_mem_nil, or_false] at hw hu
    rcases hw with rfl | rfl
    · rcases hu with rfl | rfl
      · exact Compatible.refl _
      · exact (compatible_leaf _).symm
    · exact compatible_leaf _

/-- The name of a tag is selected in every row, though one row has no tag. -/
theorem rows_join :
    (ofData untaggedRow).Sorted ∧ (ofData taggedRow).Sorted ∧
      Compatible (ofData untaggedRow) (ofData taggedRow) ∧ Compatible (ofData untaggedRow) leaf ∧
      Compatible (ofData taggedRow) leaf ∧
      union (ofData untaggedRow) (ofData taggedRow) = union (ofData taggedRow) (ofData untaggedRow) ∧
      FitTogether [untaggedRow, taggedRow] ∧ (∀ v ∈ [untaggedRow, taggedRow], v.Homogeneous) ∧
      ofData (.array [taggedRow, untaggedRow]) = ofData (.array [untaggedRow, taggedRow]) ∧
      Selects (ofData (.array [untaggedRow, taggedRow])) [.element] "title" ∧
      Selects (ofData (.array [untaggedRow, taggedRow])) [.element, .field "tags", .element] "name" := by
  have huntagged : untaggedRow.Sorted := by decide +kernel
  have htagged : taggedRow.Sorted := by decide +kernel
  have hrows : ∀ v ∈ [untaggedRow, taggedRow], v.Sorted := by
    intro v hv
    simp only [List.mem_cons, List.not_mem_nil, or_false] at hv
    rcases hv with rfl | rfl
    · exact huntagged
    · exact htagged
  have hleft := sorted_ofData untaggedRow huntagged
  have hright := sorted_ofData taggedRow htagged
  have hbare : leaf.Sorted := trivial
  have hleaf (a : Shape) : Compatible a leaf := (compatible_leaf a).symm
  obtain ⟨hcomm, -, -, -, -, -, -, hlist⟩ :=
    union_join hleft hright hbare compatible_rows (hleaf _) (hleaf _)
  obtain ⟨hperm, -, hown, hdeep⟩ := hlist _ hrows fitTogether_rows
  refine ⟨hleft, hright, compatible_rows, hleaf _, hleaf _, hcomm, fitTogether_rows, homogeneous_rows,
    hperm _ (List.Perm.swap _ _ []), (hown "title").2 ⟨by decide, untaggedRow, ?_, by decide +kernel⟩,
    (hdeep homogeneous_rows [.field "tags", .element] "name").2 ⟨taggedRow, ?_, ?_⟩⟩
  · exact List.mem_cons_self
  · exact List.mem_cons_of_mem _ List.mem_cons_self
  · exact ⟨by decide, _, rfl, _, rfl, _, List.mem_cons_self, by decide, rfl⟩

end Shape

end MediaCache
