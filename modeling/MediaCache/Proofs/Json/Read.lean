import MediaCache.Json.Decode
import MediaCache.Proofs.Json.Text
import MediaCache.Proofs.Json.Written

/-!
# What is read from text

A value that is read from text has its keys in order, its numbers can be written and read again, and it
nests no more brackets than may be open.
-/

namespace MediaCache

theorem Json.NumberLiteral.readable_of_number? {l : NumberLiteral} {n : Number}
    (h : l.number? = some n) : n.Readable := by
  unfold number? at h
  generalize (if l.negative = true then -(l.digits : Int) else l.digits) = i at h
  simp only at h
  split at h
  · rename_i hfits
    cases h
    exact hfits.2
  · obtain ⟨x, hx, rfl⟩ := Option.map_eq_some_iff.1 h
    exact Decimal.valid_of_toDouble? hx

namespace Written

/-! ## Trees -/

mutual

def Legible : Written → Prop
  | number n => ∀ m ∈ n, m.Readable
  | array items => LegibleItems items
  | object fields => LegibleFields fields
  | _ => True

def LegibleItems : List Written → Prop
  | [] => True
  | v :: rest => Legible v ∧ LegibleItems rest

def LegibleFields : List (Option String × Written) → Prop
  | [] => True
  | (_, v) :: rest => Legible v ∧ LegibleFields rest

end

theorem legibleItems_iff {items : List Written} : LegibleItems items ↔ ∀ v ∈ items, v.Legible := by
  induction items with
  | nil => simp [LegibleItems]
  | cons v rest ih => rw [LegibleItems, ih, List.forall_mem_cons]

theorem legibleFields_iff {fields : List (Option String × Written)} :
    LegibleFields fields ↔ ∀ e ∈ fields, e.2.Legible := by
  induction fields with
  | nil => simp [LegibleFields]
  | cons e rest ih =>
    obtain ⟨key, v⟩ := e
    rw [LegibleFields, ih, List.forall_mem_cons]

def Frame.Legible : Frame → Prop
  | array items => ∀ v ∈ items, v.Legible
  | object fields _ => ∀ e ∈ fields, e.2.Legible

def Expected.Legible : Expected → Prop
  | keyOrEnd fields | key fields | colon fields _ => ∀ e ∈ fields, e.2.Legible
  | done v => v.Legible
  | _ => True

namespace Progress

structure Legible (p : Progress) : Prop where
  frames : ∀ frame ∈ p.frames, frame.Legible
  expected : p.expected.Legible

theorem legible_complete {v : Written} (hv : v.Legible) {frames : List Frame}
    (h : ∀ frame ∈ frames, frame.Legible) : (complete v frames).Legible := by
  cases frames with
  | nil => exact ⟨h, hv⟩
  | cons frame rest =>
    obtain ⟨hframe, hrest⟩ := List.forall_mem_cons.1 h
    cases frame with
    | array items => exact ⟨List.forall_mem_cons.2 ⟨List.forall_mem_cons.2 ⟨hv, hframe⟩, hrest⟩, trivial⟩
    | object fields key =>
      exact ⟨List.forall_mem_cons.2 ⟨List.forall_mem_cons.2 ⟨hv, hframe⟩, hrest⟩, trivial⟩

theorem legible_beginValue? {frames : List Frame} (h : ∀ frame ∈ frames, frame.Legible) {t : Json.Token}
    {q : Progress} (hbegin : beginValue? frames t = some q) : q.Legible := by
  cases t with
  | null | bool b | string s =>
    cases hbegin
    exact legible_complete (by trivial) h
  | number l =>
    cases hbegin
    refine legible_complete (v := .number l.number?) (fun n hn => ?_) h
    exact Json.NumberLiteral.readable_of_number? hn
  | beginArray =>
    cases hbegin
    exact ⟨List.forall_mem_cons.2 ⟨List.forall_mem_nil _, h⟩, trivial⟩
  | beginObject =>
    cases hbegin
    exact ⟨h, List.forall_mem_nil _⟩
  | _ => cases hbegin

theorem Legible.step {p q : Progress} (h : p.Legible) {t : Json.Token} (hstep : p.step t = some q) :
    q.Legible := by
  obtain ⟨frames, expected⟩ := p
  obtain ⟨hframes, hexpected⟩ := h
  unfold Progress.step at hstep
  simp only at hframes hexpected hstep
  have hlist {items : List Written} (h : ∀ v ∈ items, v.Legible) : (array items.reverse).Legible :=
    legibleItems_iff.2 fun v hv => h v (List.mem_reverse.1 hv)
  have hmembers {fields : List (Option String × Written)} (h : ∀ e ∈ fields, e.2.Legible) :
      (object fields.reverse).Legible :=
    legibleFields_iff.2 fun e he => h e (List.mem_reverse.1 he)
  split at hstep
  · exact legible_beginValue? hframes hstep
  · split at hstep
    · -- The list ends.
      obtain ⟨hframe, hrest⟩ := List.forall_mem_cons.1 hframes
      cases hstep
      exact legible_complete (hlist hframe) hrest
    · cases hstep
  · exact legible_beginValue? hframes hstep
  · cases hstep
    exact legible_complete (hmembers hexpected) hframes
  · cases hstep
    exact ⟨hframes, hexpected⟩
  · cases hstep
    exact ⟨hframes, hexpected⟩
  · cases hstep
    exact ⟨List.forall_mem_cons.2 ⟨hexpected, hframes⟩, trivial⟩
  · split at hstep
    · cases hstep
      exact ⟨hframes, trivial⟩
    · obtain ⟨hframe, hrest⟩ := List.forall_mem_cons.1 hframes
      cases hstep
      exact ⟨hrest, hframe⟩
    · cases hstep
  · split at hstep
    · -- The list ends behind an item.
      obtain ⟨hframe, hrest⟩ := List.forall_mem_cons.1 hframes
      cases hstep
      exact legible_complete (hlist hframe) hrest
    · cases hstep
  · split at hstep
    · -- The object ends.
      obtain ⟨hframe, hrest⟩ := List.forall_mem_cons.1 hframes
      cases hstep
      exact legible_complete (hmembers hframe) hrest
    · cases hstep
  · cases hstep

theorem Legible.steps {tokens : List Json.Token} {p q : Progress} (h : p.Legible)
    (hsteps : tokens.foldlM Progress.step p = some q) : q.Legible := by
  induction tokens generalizing p with
  | nil =>
    cases hsteps
    exact h
  | cons t rest ih =>
    rw [List.foldlM_cons] at hsteps
    obtain ⟨next, hnext, hrest⟩ := Option.bind_eq_some_iff.1 hsteps
    exact ih (h.step hnext) hrest

end Progress

theorem mem_of_single? {fields : List (Option String × Written)} {key : String} {w : Written}
    (h : single? fields key = some (some w)) : ∃ e ∈ fields, e.2 = w := by
  unfold single? at h
  split at h
  · cases h
  · rename_i e he
    cases h
    have hin : e ∈ fields.filter fun e => e.1 == some key := he ▸ List.mem_singleton_self e
    exact ⟨e, (List.mem_filter.1 hin).1, rfl⟩
  · cases h

theorem legible_of_parse? {text : String} {w : Written} (h : parse? text = some w) : w.Legible := by
  obtain ⟨tokens, -, htokens⟩ := Option.bind_eq_some_iff.1 h
  obtain ⟨p, hp, hdone⟩ := Option.bind_eq_some_iff.1 htokens
  have hstart : Progress.Legible ⟨[], .value⟩ := ⟨List.forall_mem_nil _, trivial⟩
  have hend := (hstart.steps hp).expected
  split at hdone
  · rename_i v hv
    cases hdone
    rw [hv] at hend
    exact hend
  · cases hdone

/-! ## Values -/

theorem Limit.Covers.of_enter? {limit inner : Limit} (henter : Limit.enter? limit = some inner) {n : Nat}
    (h : inner.Covers n) : limit.Covers (n + 1) := by
  match limit with
  | none => exact covers_none _
  | some 0 => cases henter
  | some (room + 1) =>
    cases henter
    exact covers_some.2 (Nat.succ_le_succ (covers_some.1 h))

end Written

/-- What can be read from text where so many brackets may be open. -/
structure Json.Textual (limit : Written.Limit) (v : Json) : Prop where
  sorted : v.Sorted
  legible : v.Legible
  depth : limit.Covers v.depth

theorem Json.Textual.unbounded {limit : Written.Limit} {v : Json} (h : v.Textual limit) : v.Textual none :=
  ⟨h.sorted, h.legible, Written.Limit.covers_none _⟩

namespace Written

theorem textual_array {limit inner : Limit} (henter : Limit.enter? limit = some inner) {items : List Json}
    (h : ∀ v ∈ items, v.Textual inner) : (Json.array items).Textual limit := by
  refine ⟨Json.sortedItems_iff.2 fun v hv => (h v hv).sorted,
    Json.legible_array.2 fun v hv => (h v hv).legible, ?_⟩
  rw [Json.depth]
  refine Limit.Covers.of_enter? henter fun room hroom => ?_
  exact Json.depthOfItems_le_iff.2 fun v hv => (h v hv).depth room hroom

theorem textual_object {limit inner : Limit} (henter : Limit.enter? limit = some inner)
    {fields : Json.Fields} (hordered : Assoc.Ordered fields) (h : ∀ e ∈ fields, e.2.Textual inner) :
    (Json.object fields).Textual limit := by
  refine ⟨⟨hordered, Json.sortedFields_iff.2 fun e he => (h e he).sorted⟩,
    Json.legible_object.2 fun e he => (h e he).legible, ?_⟩
  rw [Json.depth]
  refine Limit.Covers.of_enter? henter fun room hroom => ?_
  exact Json.depthOfFields_le_iff.2 fun e he => (h e he).depth room hroom

theorem textual_member {limit inner : Limit} (henter : Limit.enter? limit = some inner)
    {fields : Json.Fields} (h : (Json.object fields).Textual limit) : ∀ e ∈ fields, e.2.Textual inner := by
  obtain ⟨found, hfound, hcovers⟩ := Limit.enter?_of_covers h.depth
  cases hfound.symm.trans henter
  exact fun e he => ⟨Json.sortedFields_iff.1 h.sorted.2 e he, Json.legible_object.1 h.legible e he,
    fun room hroom => Json.depthOfFields_le_iff.1 (hcovers room hroom) e he⟩

theorem textual_item {limit inner : Limit} (henter : Limit.enter? limit = some inner) {items : List Json}
    (h : (Json.array items).Textual limit) : ∀ v ∈ items, v.Textual inner := by
  obtain ⟨found, hfound, hcovers⟩ := Limit.enter?_of_covers h.depth
  cases hfound.symm.trans henter
  exact fun v hv => ⟨Json.sortedItems_iff.1 h.sorted v hv, Json.legible_array.1 h.legible v hv,
    fun room hroom => Json.depthOfItems_le_iff.1 (hcovers room hroom) v hv⟩

theorem textual_of_isScalar {v : Json} (hscalar : v.isScalar = true) (h : v.Legible) (limit : Limit) :
    v.Textual limit := by
  refine ⟨Json.sorted_of_isScalar hscalar, h, fun room _ => ?_⟩
  cases v with
  | array items | object fields => cases hscalar
  | _ => exact Nat.zero_le room

theorem textual_text (limit : Limit) (s : String) : (Json.string s).Textual limit :=
  textual_of_isScalar rfl (Json.legible_of_isScalar rfl fun n hn => by cases hn) limit

theorem textual_number {n : Number} (h : n.Readable) (limit : Limit) : (Json.number n).Textual limit :=
  textual_of_isScalar rfl (Json.legible_number.2 h) limit

mutual

theorem textual_of_value? : ∀ (w : Written) {limit : Limit} {v : Json}, w.Legible →
    value? limit w = some v → v.Textual limit
  | null, limit, v, _, hread => by
    cases hread
    exact textual_of_isScalar rfl (Json.legible_of_isScalar rfl fun n hn => by cases hn) limit
  | bool b, limit, v, _, hread => by
    cases hread
    exact textual_of_isScalar rfl (Json.legible_of_isScalar rfl fun n hn => by cases hn) limit
  | number n, limit, v, h, hread => by
    obtain ⟨m, hm, rfl⟩ := Option.map_eq_some_iff.1 hread
    exact textual_number (h m hm) limit
  | string s, limit, v, _, hread => by
    obtain ⟨text, -, rfl⟩ := Option.map_eq_some_iff.1 hread
    exact textual_text limit text
  | array items, limit, v, h, hread => by
    rw [value?] at hread
    obtain ⟨inner, henter, hvalues⟩ := Option.bind_eq_some_iff.1 hread
    obtain ⟨read, hitems, rfl⟩ := Option.map_eq_some_iff.1 hvalues
    exact textual_array henter (textual_of_values? items h hitems)
  | object fields, limit, v, h, hread => by
    rw [value?] at hread
    obtain ⟨inner, henter, hvalues⟩ := Option.bind_eq_some_iff.1 hread
    obtain ⟨read, hfields, rfl⟩ := Option.map_eq_some_iff.1 hvalues
    obtain ⟨hordered, hmembers⟩ :=
      textual_of_members? fields h Assoc.ordered_nil (List.forall_mem_nil _) hfields
    exact textual_object henter hordered hmembers

theorem textual_of_values? : ∀ (items : List Written) {limit : Limit} {read : List Json},
    LegibleItems items → values? limit items = some read → ∀ v ∈ read, v.Textual limit
  | [], limit, read, _, hread => by
    rw [values?] at hread
    cases hread
    exact List.forall_mem_nil _
  | w :: rest, limit, read, h, hread => by
    rw [values?] at hread
    obtain ⟨v, hv, hrest⟩ := Option.bind_eq_some_iff.1 hread
    obtain ⟨others, hothers, rfl⟩ := Option.map_eq_some_iff.1 hrest
    exact List.forall_mem_cons.2 ⟨textual_of_value? w h.1 hv, textual_of_values? rest h.2 hothers⟩

theorem textual_of_members? : ∀ (fields : List (Option String × Written)) {limit : Limit}
    {seen read : Json.Fields}, LegibleFields fields → Assoc.Ordered seen →
      (∀ e ∈ seen, e.2.Textual limit) → members? limit fields seen = some read →
        Assoc.Ordered read ∧ ∀ e ∈ read, e.2.Textual limit
  | [], limit, seen, read, _, hordered, hseen, hread => by
    rw [members?] at hread
    cases hread
    exact ⟨hordered, hseen⟩
  | (key, w) :: rest, limit, seen, read, h, hordered, hseen, hread => by
    rw [members?] at hread
    obtain ⟨name, -, hvalue⟩ := Option.bind_eq_some_iff.1 hread
    obtain ⟨v, hv, hrest⟩ := Option.bind_eq_some_iff.1 hvalue
    refine textual_of_members? rest h.2 (hordered.insert name v) (fun e he => ?_) hrest
    rcases Assoc.mem_insert he with rfl | he
    · exact textual_of_value? w h.1 hv
    · exact hseen e he

end

end Written

/-! ## Shapes -/

namespace Shape

theorem toFields_eq (fields : List (String × Shape)) :
    toFields fields = fields.map fun e => (e.1, e.2.toJson) := by
  induction fields with
  | nil => rw [toFields, List.map_nil]
  | cons e rest ih =>
    obtain ⟨key, shape⟩ := e
    rw [toFields, ih, List.map_cons]

structure Textual (limit : Written.Limit) (shape : Shape) : Prop where
  sorted : shape.Sorted
  depth : limit.Covers shape.toJson.depth

theorem Textual.unbounded {limit : Written.Limit} {shape : Shape} (h : shape.Textual limit) :
    shape.Textual none :=
  ⟨h.sorted, Written.Limit.covers_none _⟩

theorem textual_leaf (limit : Written.Limit) : leaf.Textual limit :=
  ⟨trivial, fun room _ => Nat.zero_le room⟩

theorem textual_list {limit inner : Written.Limit} (henter : Written.Limit.enter? limit = some inner)
    {element : Shape} (h : element.Textual inner) : (list element).Textual limit :=
  ⟨h.sorted, depth_toJson_list element ▸ Written.Limit.Covers.of_enter? henter h.depth⟩

theorem textual_object {limit outer inner : Written.Limit}
    (houter : Written.Limit.enter? limit = some outer) (hinner : Written.Limit.enter? outer = some inner)
    {fields : List (String × Shape)} (hordered : Assoc.Ordered fields)
    (h : ∀ e ∈ fields, e.2.Textual inner) : (object fields).Textual limit := by
  refine ⟨⟨hordered, sortedFields_iff.2 fun e he => (h e he).sorted⟩, ?_⟩
  rw [depth_toJson_object, toFields_eq]
  refine Written.Limit.Covers.of_enter? houter (Written.Limit.Covers.of_enter? hinner ?_)
  refine fun room hroom => Json.depthOfFields_le_iff.2 fun e he => ?_
  obtain ⟨member, hmember, rfl⟩ := List.mem_map.1 he
  exact (h member hmember).depth room hroom

mutual

theorem textual_of_ofWritten? (w : Written) {limit : Written.Limit} {shape : Shape}
    (h : ofWritten? limit w = some shape) : shape.Textual limit := by
  unfold ofWritten? at h
  split at h
  · cases h
    exact textual_leaf limit
  · obtain ⟨inner, -, rfl⟩ := Option.map_eq_some_iff.1 h
    exact textual_leaf limit
  · rename_i element
    obtain ⟨inner, henter, hread⟩ := Option.bind_eq_some_iff.1 h
    obtain ⟨read, helement, hlist⟩ := Option.bind_eq_some_iff.1 hread
    cases hlist
    exact textual_list henter (textual_of_ofWritten? element helement)
  · rename_i fields
    obtain ⟨outer, houter, hnext⟩ := Option.bind_eq_some_iff.1 h
    obtain ⟨inner, hinner, hread⟩ := Option.bind_eq_some_iff.1 hnext
    obtain ⟨read, hfields, hobject⟩ := Option.bind_eq_some_iff.1 hread
    cases hobject
    obtain ⟨hordered, hmembers⟩ :=
      textual_of_ofMembers? fields hfields Assoc.ordered_nil (List.forall_mem_nil _)
    exact textual_object houter hinner hordered hmembers
  · cases h
termination_by sizeOf w

theorem textual_of_ofMembers? (fields : List (Option String × Written)) {limit : Written.Limit}
    {seen read : List (String × Shape)} (h : ofMembers? limit fields seen = some read)
    (hordered : Assoc.Ordered seen) (hseen : ∀ e ∈ seen, e.2.Textual limit) :
    Assoc.Ordered read ∧ ∀ e ∈ read, e.2.Textual limit := by
  match fields with
  | [] =>
    cases h
    exact ⟨hordered, hseen⟩
  | (none, _) :: _ => cases h
  | (some key, w) :: rest =>
    obtain ⟨shape, hshape, hrest⟩ := Option.bind_eq_some_iff.1 h
    refine textual_of_ofMembers? rest hrest (hordered.insert key shape) fun e he => ?_
    rcases Assoc.mem_insert he with rfl | he
    · exact textual_of_ofWritten? w hshape
    · exact hseen e he
termination_by sizeOf fields

end

mutual

theorem textual_toJson : ∀ (shape : Shape) {limit : Written.Limit}, shape.Textual limit →
    shape.toJson.Textual limit
  | leaf, limit, _ => by
    rw [toJson]
    exact Written.textual_of_isScalar rfl (Json.legible_of_isScalar rfl fun n hn => by cases hn) limit
  | list element, limit, h => by
    obtain ⟨inner, henter, hinner⟩ :=
      Written.Limit.enter?_of_covers (depth_toJson_list element ▸ h.depth)
    rw [toJson]
    refine Written.textual_object henter (List.pairwise_singleton _ _) (List.forall_mem_singleton.2 ?_)
    exact textual_toJson element ⟨h.sorted, hinner⟩
  | object fields, limit, h => by
    obtain ⟨outer, houter, hcovers⟩ :=
      Written.Limit.enter?_of_covers (depth_toJson_object fields ▸ h.depth)
    obtain ⟨inner, hinner, hcovers⟩ := Written.Limit.enter?_of_covers hcovers
    have hmembers : ∀ e ∈ fields, e.2.Textual inner := by
      refine fun e he => ⟨sortedFields_iff.1 h.sorted.2 e he, fun room hroom => ?_⟩
      have hle := Json.depthOfFields_le_iff.1 (hcovers room hroom)
      exact hle (e.1, e.2.toJson) (toFields_eq fields ▸ List.mem_map_of_mem he)
    rw [toJson]
    refine Written.textual_object houter (List.pairwise_singleton _ _) (List.forall_mem_singleton.2 ?_)
    refine Written.textual_object hinner ?_ (textual_toFields fields hmembers)
    rw [toFields_eq]
    exact h.sorted.1.mapValues toJson

theorem textual_toFields : ∀ (fields : List (String × Shape)) {limit : Written.Limit},
    (∀ e ∈ fields, e.2.Textual limit) → ∀ e ∈ toFields fields, e.2.Textual limit
  | [], _, _ => by
    rw [toFields]
    exact List.forall_mem_nil _
  | (key, shape) :: rest, limit, h => by
    obtain ⟨hfirst, hrest⟩ := List.forall_mem_cons.1 h
    rw [toFields]
    exact List.forall_mem_cons.2 ⟨textual_toJson shape hfirst, textual_toFields rest hrest⟩

end

end Shape

end MediaCache
