import MediaCache.Proofs.Store.Index
import MediaCache.Proofs.Update.TypeFields
import MediaCache.Update.Plan

/-!
# What evictions take

A `Loss` names whole objects and single fields, whatever the cache holds. Each eviction takes a loss
from the stored objects, or acts on the root entries one by one, and does nothing else.
-/

namespace MediaCache

structure Loss where
  objects : String → Bool
  fields : String → String → Bool

namespace Loss

def nothing : Loss := ⟨fun _ => false, fun _ _ => false⟩

def union (a b : Loss) : Loss :=
  ⟨fun id => a.objects id || b.objects id, fun id field => a.fields id field || b.fields id field⟩

def ofObject (obj : ObjectRef) : Loss := ⟨fun id => id == obj.cacheId, fun _ _ => false⟩

def ofField (obj : ObjectRef) (field : String) : Loss :=
  ⟨fun _ => false, fun id k => id == obj.cacheId && k == field⟩

/-- The listed fields of every object of the types but the ignored one. An object with an empty id is
passed over. -/
def ofTypes (fields : TypeFields) (ignore : Option ObjectRef) : Loss where
  objects _ := false
  fields id field :=
    match ObjectRef.ofCacheId? id with
    | some obj => decide (ignore ≠ some obj) && fields.covers obj.typename field
    | none => false

def left (l : Loss) (id : String) (r : Option Record) : Option Record :=
  if l.objects id then none else r.map (·.without (l.fields id))

/-- The second cache has exactly what the loss leaves of the objects of the first. -/
def Takes (l : Loss) (c d : Cache) : Prop :=
  ∀ id, d.objects.get? id = l.left id (c.objects.get? id)

theorem left_left (a b : Loss) (id : String) (r : Option Record) :
    b.left id (a.left id r) = (b.union a).left id r := by
  cases ha : a.objects id <;> cases hb : b.objects id <;> cases r <;>
    simp [left, union, ha, hb, Record.without_without]

theorem union_comm (a b : Loss) : a.union b = b.union a := by
  simp only [union, Bool.or_comm]

theorem takes_nothing (c : Cache) : nothing.Takes c c := by
  intro id
  simp only [left, nothing, Bool.false_eq_true, if_false]
  cases c.objects.get? id <;> simp

theorem Takes.contains {l : Loss} {c d : Cache} (h : l.Takes c d) {id : String}
    (hid : d.objects.contains id = true) : c.objects.contains id = true := by
  rw [SortedMap.contains, h id, left] at hid
  split at hid
  · cases hid
  · rw [Option.isSome_map] at hid
    exact hid

end Loss

namespace Cache

theorem takes_evictObject (c : Cache) (obj : ObjectRef) :
    (Loss.ofObject obj).Takes c (c.evictObject obj).2 := by
  intro id
  rw [get?_evictObject]
  by_cases h : id = obj.cacheId
  · simp [Loss.left, Loss.ofObject, h]
  · cases c.objects.get? id <;> simp [Loss.left, Loss.ofObject, h]

theorem takes_evictField (c : Cache) (obj : ObjectRef) (field : String) :
    (Loss.ofField obj field).Takes c (c.evictField obj field).2 := by
  intro id
  rw [get?_evictField]
  rfl

/-! ## Fields of many objects -/

theorem snd_foldl {α : Type} {f : Nat × Cache → α → Nat × Cache} {g : Cache → α → Cache}
    (h : ∀ acc a, (f acc a).2 = g acc.2 a) (l : List α) (acc : Nat × Cache) :
    (l.foldl f acc).2 = l.foldl g acc.2 := by
  induction l generalizing acc with
  | nil => rfl
  | cons a l ih =>
    rw [List.foldl_cons, List.foldl_cons, ih, h]

structure Trimmed (lost : String → String → Bool) (c d : Cache) : Prop where
  sameRoot : SameRoot c d
  index : d.index = c.index
  objects : ∀ id, d.objects.get? id = (c.objects.get? id).map (·.without (lost id))

theorem Trimmed.contains {lost : String → String → Bool} {c d : Cache} (h : Trimmed lost c d)
    (id : String) : d.objects.contains id = c.objects.contains id := by
  rw [SortedMap.contains, h.objects, Option.isSome_map, SortedMap.contains]

theorem Trimmed.refl (c : Cache) : Trimmed (fun _ _ => false) c c := by
  refine ⟨SameRoot.refl c, rfl, ?_⟩
  intro id
  cases c.objects.get? id <;> simp

theorem Trimmed.trans {p q : String → String → Bool} {c d e : Cache} (h : Trimmed p c d)
    (h' : Trimmed q d e) : Trimmed (fun id k => q id k || p id k) c e := by
  refine ⟨h.sameRoot.trans h'.sameRoot, h'.index.trans h.index, ?_⟩
  intro id
  rw [h'.objects, h.objects, Option.map_map]
  congr 1
  funext r
  exact Record.without_without r _ _

theorem Trimmed.congr {p q : String → String → Bool} {c d : Cache} (h : Trimmed p c d)
    (hpq : ∀ id, c.objects.contains id = true → ∀ k, p id k = q id k) : Trimmed q c d := by
  refine ⟨h.sameRoot, h.index, ?_⟩
  intro id
  rw [h.objects]
  cases hr : c.objects.get? id with
  | none => rfl
  | some r =>
    have : p id = q id := funext (hpq id (by simp [SortedMap.contains, hr]))
    rw [this]

theorem Trimmed.indexed {lost : String → String → Bool} {c d : Cache} (h : Trimmed lost c d)
    (hc : c.Indexed) : d.Indexed :=
  hc.of_same h.index h.contains

theorem trimmed_evictField (c : Cache) (obj : ObjectRef) (field : String) :
    Trimmed (fun id k => id == obj.cacheId && k == field) c (c.evictField obj field).2 :=
  ⟨(sameRoot_modifyField c obj field _).1, (sameRoot_modifyField c obj field _).2,
    get?_evictField c obj field⟩

theorem evictFields_eq (c : Cache) (obj : ObjectRef) (names : List String) :
    (c.evictFields obj names).2 = names.foldl (fun c name => (c.evictField obj name).2) c :=
  snd_foldl (fun _ _ => rfl) _ _

theorem trimmed_evictFields (c : Cache) (obj : ObjectRef) (names : List String) :
    Trimmed (fun id k => id == obj.cacheId && names.contains k) c (c.evictFields obj names).2 := by
  rw [evictFields_eq]
  induction names generalizing c with
  | nil => exact (Trimmed.refl c).congr fun id _ k => by simp
  | cons name rest ih =>
    refine ((trimmed_evictField c obj name).trans (ih _)).congr fun id _ k => ?_
    rw [List.contains_cons]
    cases (id == obj.cacheId) <;> cases (k == name) <;> simp

theorem mem_objectsOfType_iff {c : Cache} (hc : c.Indexed) (t : Typename) (obj : ObjectRef) :
    obj ∈ c.objectsOfType t ↔ obj.typename = t ∧ obj.id ≠ "" ∧ c.contains obj = true := by
  rw [objectsOfType, List.mem_filterMap]
  constructor
  · rintro ⟨id, hid, hobj⟩
    obtain ⟨rfl, hne⟩ := ObjectRef.ofCacheId?_eq_some_iff.1 hobj
    obtain ⟨hin, key, hkey⟩ := (hc.listed t _).1 ((mem_indexed_iff c t _).1 hid)
    have := ObjectRef.cacheId_inj hkey
    subst this
    exact ⟨rfl, hne, hin⟩
  · rintro ⟨rfl, hne, hin⟩
    refine ⟨obj.cacheId, (mem_indexed_iff c _ _).2 ((hc.listed _ _).2 ⟨hin, obj.id, rfl⟩), ?_⟩
    exact ObjectRef.ofCacheId?_eq_some_iff.2 ⟨rfl, hne⟩

theorem trimmed_evictObjects (c : Cache) (objs : List ObjectRef) (ignore : Option ObjectRef)
    (names : List String) :
    Trimmed
      (fun id k => objs.any (fun obj => decide (ignore ≠ some obj) && id == obj.cacheId) &&
        names.contains k)
      c (objs.foldl (fun c obj => if ignore = some obj then c else (c.evictFields obj names).2) c) := by
  induction objs generalizing c with
  | nil => exact (Trimmed.refl c).congr fun id _ k => by simp
  | cons obj rest ih =>
    rw [List.foldl_cons]
    by_cases h : ignore = some obj
    · rw [if_pos h]
      exact (ih c).congr fun id _ k => by simp [h]
    · rw [if_neg h]
      refine ((trimmed_evictFields c obj names).trans (ih _)).congr fun id _ k => ?_
      rw [List.any_cons, decide_eq_true h, Bool.true_and]
      cases (id == obj.cacheId) <;> cases names.contains k <;> simp

def inRows (rows : List (Typename × List String)) (ignore : Option ObjectRef) (id field : String) :
    Bool :=
  match ObjectRef.ofCacheId? id with
  | some obj =>
    decide (ignore ≠ some obj) && rows.any fun row => decide (row.1 = obj.typename) &&
      row.2.contains field
  | none => false

theorem trimmed_evictRows {c : Cache} (hc : c.Indexed) (rows : List (Typename × List String))
    (ignore : Option ObjectRef) :
    Trimmed (inRows rows ignore) c
      (rows.foldl (fun c row => (c.objectsOfType row.1).foldl
        (fun c obj => if ignore = some obj then c else (c.evictFields obj row.2).2) c) c) := by
  induction rows generalizing c with
  | nil =>
    refine (Trimmed.refl c).congr fun id _ k => ?_
    rw [inRows]
    split <;> simp
  | cons row rest ih =>
    rw [List.foldl_cons]
    have hrow := trimmed_evictObjects c (c.objectsOfType row.1) ignore row.2
    -- The first row leaves an exact index for the others.
    refine (hrow.trans (ih (hrow.indexed hc))).congr fun id hid k => ?_
    obtain ⟨obj, rfl⟩ := hc.keys id hid
    -- The index finds the object in the row of its type, unless its id is empty.
    have hfound : (c.objectsOfType row.1).any
        (fun o => decide (ignore ≠ some o) && obj.cacheId == o.cacheId) =
        (decide (row.1 = obj.typename) && decide (obj.id ≠ "") && decide (ignore ≠ some obj)) := by
      rw [Bool.eq_iff_iff, List.any_eq_true]
      simp only [Bool.and_eq_true, decide_eq_true_eq, beq_iff_eq, ObjectRef.cacheId_eq_iff]
      constructor
      · rintro ⟨o, ho, hne, rfl⟩
        obtain ⟨ht, hempty, -⟩ := (mem_objectsOfType_iff hc _ _).1 ho
        exact ⟨⟨ht.symm, hempty⟩, hne⟩
      · rintro ⟨⟨ht, hempty⟩, hne⟩
        exact ⟨obj, (mem_objectsOfType_iff hc _ _).2 ⟨ht.symm, hempty, hid⟩, hne, rfl⟩
    rw [hfound, inRows, inRows, ObjectRef.ofCacheId?_cacheId]
    by_cases hempty : obj.id = ""
    · simp [hempty]
    · simp only [hempty, if_false, List.any_cons, decide_not, decide_false, Bool.not_false,
        Bool.and_true]
      cases (decide (row.1 = obj.typename)) <;> cases (decide (ignore = some obj)) <;>
        cases row.2.contains k <;> simp

theorem evictTypeFields_eq (c : Cache) (fields : TypeFields) (ignore : Option ObjectRef) :
    (c.evictTypeFields fields ignore).2 = fields.rows.foldl
      (fun c row => (c.objectsOfType row.1).foldl
        (fun c obj => if ignore = some obj then c else (c.evictFields obj row.2).2) c) c := by
  unfold evictTypeFields
  refine snd_foldl (fun acc row => ?_) _ _
  refine snd_foldl (fun acc obj => ?_) _ _
  by_cases h : ignore = some obj
  · simp only [if_pos h]
  · simp only [if_neg h]

/-- Type-wide eviction takes the listed fields from every object that the index can name. -/
theorem trimmed_evictTypeFields {c : Cache} (hc : c.Indexed) (fields : TypeFields)
    (ignore : Option ObjectRef) :
    Trimmed (Loss.ofTypes fields ignore).fields c (c.evictTypeFields fields ignore).2 := by
  rw [evictTypeFields_eq]
  refine (trimmed_evictRows hc fields.rows ignore).congr fun id _ k => ?_
  simp only [inRows, Loss.ofTypes]
  cases ObjectRef.ofCacheId? id with
  | none => rfl
  | some obj =>
    have hcovers : (fields.rows.any fun row => decide (row.1 = obj.typename) && row.2.contains k) =
        fields.covers obj.typename k := by
      rw [Bool.eq_iff_iff, TypeFields.covers_iff_rows, List.any_eq_true]
      simp
    simp only [hcovers]

theorem fieldValue?_evictTypeFields {c : Cache} (hc : c.Indexed) (fields : TypeFields)
    (ignore : Option ObjectRef) (obj : ObjectRef) (field : String) :
    (c.evictTypeFields fields ignore).2.fieldValue? obj field =
      if obj.id ≠ "" ∧ ignore ≠ some obj ∧ fields.covers obj.typename field = true then none
      else c.fieldValue? obj field := by
  have hlost : (Loss.ofTypes fields ignore).fields obj.cacheId field =
      decide (obj.id ≠ "" ∧ ignore ≠ some obj ∧ fields.covers obj.typename field = true) := by
    by_cases hid : obj.id = "" <;> simp [Loss.ofTypes, ObjectRef.ofCacheId?_cacheId, hid]
  rw [fieldValue?, get?_eq, (trimmed_evictTypeFields hc fields ignore).objects, fieldValue?, get?_eq]
  cases c.objects.get? obj.cacheId with
  | none => simp
  | some r =>
    simp only [Option.map_some, Option.bind_some, Record.get?_without, hlost, decide_eq_true_eq]

theorem Trimmed.takes {lost : String → String → Bool} {c d : Cache} (h : Trimmed lost c d) :
    (Loss.mk (fun _ => false) lost).Takes c d := by
  intro id
  rw [h.objects]
  rfl

/-! ## Root entries -/

/-- The entries of the queries are gone. Nothing is collected. -/
def dropQueries (c : Cache) (docs : List Document) : Cache :=
  docs.foldl (fun c doc => (c.evictRoot doc.rootField).2) c

theorem evictQueries_eq (c : Cache) (docs : List Document) (options : Options) :
    (c.evictQueries docs options).2 =
      if options.collectAfterEvict then (c.dropQueries docs).collect.2 else c.dropQueries docs := by
  have hfold : (docs.foldl (fun (acc : Nat × Cache) doc =>
      (acc.1 + (acc.2.evictRoot doc.rootField).1, (acc.2.evictRoot doc.rootField).2)) (0, c)).2 =
      c.dropQueries docs := snd_foldl (fun _ _ => rfl) _ _
  rw [← hfold]
  rfl

theorem sameStore_dropQueries (c : Cache) (docs : List Document) :
    SameStore c (c.dropQueries docs) := by
  induction docs generalizing c with
  | nil => exact SameStore.refl c
  | cons doc rest ih => exact (sameStore_evictRoot c doc.rootField).trans (ih _)

theorem entry_dropQueries (c : Cache) (docs : List Document) (name : String) :
    (c.dropQueries docs).entry name =
      if (docs.any fun doc => doc.rootField == baseFieldName name) = true ∧ (c.entry name).1.isSome
      then (none, none) else c.entry name := by
  induction docs generalizing c with
  | nil => simp [dropQueries]
  | cons doc rest ih =>
    have hstep : c.dropQueries (doc :: rest) = (c.evictRoot doc.rootField).2.dropQueries rest := rfl
    rw [hstep, ih, entry_evictRoot, List.any_cons]
    by_cases hdoc : baseFieldName name = doc.rootField
    · cases hv : (c.entry name).1 <;> simp [hdoc, hv]
    · have hdoc' : doc.rootField ≠ baseFieldName name := fun h => hdoc h.symm
      simp [hdoc, hdoc']

theorem get?_evictQueries_of_contains {c : Cache} {docs : List Document} {options : Options}
    {id : String} (h : (c.evictQueries docs options).2.objects.contains id = true) :
    (c.evictQueries docs options).2.objects.get? id = c.objects.get? id := by
  rw [evictQueries_eq] at h ⊢
  split at h
  · rename_i hcollect
    rw [if_pos hcollect, get?_collect_of_contains h, (sameStore_dropQueries c docs).objects]
  · rename_i hcollect
    rw [if_neg hcollect, (sameStore_dropQueries c docs).objects]

theorem contains_of_contains_evictQueries {c : Cache} {docs : List Document} {options : Options}
    {o : ObjectRef} (h : (c.evictQueries docs options).2.contains o = true) : c.contains o = true := by
  rw [contains_eq, SortedMap.contains, ← get?_evictQueries_of_contains h]
  exact h

theorem fieldValue?_evictQueries_of_contains {c : Cache} {docs : List Document} {options : Options}
    {obj : ObjectRef} (h : (c.evictQueries docs options).2.contains obj = true) (field : String) :
    (c.evictQueries docs options).2.fieldValue? obj field = c.fieldValue? obj field := by
  unfold fieldValue?
  rw [get?_eq, get?_eq, get?_evictQueries_of_contains h]

theorem sameRoot_evictQueries (c : Cache) (docs : List Document) (options : Options) :
    SameRoot (c.dropQueries docs) (c.evictQueries docs options).2 := by
  rw [evictQueries_eq]
  split
  · exact sameRoot_collect _
  · exact SameRoot.refl _

theorem entry_evictQueries_of_not_named {c : Cache} {docs : List Document} {options : Options}
    {name : String} (h : ∀ doc ∈ docs, doc.rootField ≠ baseFieldName name) :
    (c.evictQueries docs options).2.entry name = c.entry name := by
  have hnone : (docs.any fun doc => doc.rootField == baseFieldName name) = false := by
    rw [List.any_eq_false]
    intro doc hdoc
    rw [beq_iff_eq]
    exact h doc hdoc
  rw [(sameRoot_evictQueries c docs options).entry, entry_dropQueries, if_neg]
  rw [hnone]
  simp

@[simp]
theorem storeEntities_null (c : Cache) : c.storeEntities .null = c := rfl

def lookupName (obj : ObjectRef) (lookup : Document) : String :=
  storeFieldName lookup.rootField (some (.object [("id", .string obj.id)]))

theorem entry_deleteObject (c : Cache) (obj : ObjectRef) (lookup : Document) (name : String) :
    (c.deleteObject obj lookup).entry name =
      if name = lookupName obj lookup then (some .null, some .leaf) else c.entry name := by
  rw [deleteObject, (sameRoot_evictObject _ obj).entry, entry, writeRoot, storeEntities_null,
    lookupName]
  simp only [SortedMap.get?_insert]
  split <;> rfl

theorem takes_deleteObject (c : Cache) (obj : ObjectRef) (lookup : Document) :
    (Loss.ofObject obj).Takes c (c.deleteObject obj lookup) :=
  takes_evictObject (c.writeRoot lookup.rootField (some (.object [("id", .string obj.id)])) .null) obj

theorem Indexed.deleteObject {c : Cache} (h : c.Indexed) (obj : ObjectRef) (lookup : Document) :
    (c.deleteObject obj lookup).Indexed :=
  (h.writeRoot lookup.rootField _ .null).evictObject obj

def addedStat (stat : String) (delta : Double) (v : Json) : Json :=
  match v with
  | .object stats =>
    match (Assoc.get? stat stats).bind (addNumber? · delta) with
    | some next => .object (Assoc.insert stat next stats)
    | none => .object stats
  | v => v

theorem entry_addToStat (c : Cache) (stat : String) (delta : Double) (name : String) :
    (c.addToStat stat delta).2.entry name =
      if baseFieldName name = Document.stats.rootField then
        ((c.entry name).1.map (addedStat stat delta), (c.entry name).2)
      else c.entry name := by
  rw [addToStat]
  simp only
  rw [entry_modifyRoot]
  by_cases h : baseFieldName name = Document.stats.rootField
  · rw [if_pos h, if_pos h]
    cases hv : c.root.get? name with
    | none => simp [entry, hv]
    | some v =>
      cases v with
      | object stats =>
        cases hn : (Assoc.get? stat stats).bind (addNumber? · delta) <;>
          simp [entry, hv, addedStat, hn, FieldUpdate.onEntry]
      | _ => simp [entry, hv, addedStat, FieldUpdate.onEntry]
  · rw [if_neg h, if_neg h]

def droppedStat (stat : String) (v : Json) : Json :=
  match v with
  | .object stats =>
    if Assoc.contains stat stats then .object (Assoc.erase stat stats) else .object stats
  | v => v

theorem field?_droppedStat_self (stat : String) (v : Json) : (droppedStat stat v).field? stat = none := by
  cases v with
  | object stats =>
    unfold droppedStat
    simp only
    split
    · exact Assoc.get?_erase_self stat stats
    · rename_i hnone
      exact Option.not_isSome_iff_eq_none.1 hnone
  | _ => rfl

theorem field?_droppedStat_of_ne {stat s : String} (h : s ≠ stat) (v : Json) :
    (droppedStat stat v).field? s = v.field? s := by
  cases v with
  | object stats =>
    unfold droppedStat
    simp only
    split
    · exact Assoc.get?_erase_of_ne h _
    · rfl
  | _ => rfl

theorem entry_dropStat (c : Cache) (stat name : String) :
    (c.dropStat stat).2.entry name =
      if baseFieldName name = Document.stats.rootField then
        ((c.entry name).1.map (droppedStat stat), (c.entry name).2)
      else c.entry name := by
  rw [dropStat]
  simp only
  rw [entry_modifyRoot]
  by_cases h : baseFieldName name = Document.stats.rootField
  · rw [if_pos h, if_pos h]
    cases hv : c.root.get? name with
    | none => simp [entry, hv]
    | some v =>
      cases v with
      | object stats =>
        by_cases hin : Assoc.contains stat stats = true <;>
          simp [entry, hv, droppedStat, hin, FieldUpdate.onEntry]
      | _ => simp [entry, hv, droppedStat, FieldUpdate.onEntry]
  · rw [if_neg h, if_neg h]

theorem sameStore_appendReference (c : Cache) (obj : ObjectRef) (list : Document) :
    SameStore c (c.appendReference obj list).2 := by
  rw [appendReference]
  exact sameStore_modifyRoot c _ _

theorem sameStore_addToStat (c : Cache) (stat : String) (delta : Double) :
    SameStore c (c.addToStat stat delta).2 := by
  rw [addToStat]
  simp only
  exact sameStore_modifyRoot c _ _

theorem sameStore_dropStat (c : Cache) (stat : String) : SameStore c (c.dropStat stat).2 := by
  rw [dropStat]
  simp only
  exact sameStore_modifyRoot c _ _

/-! ## Plays -/

theorem fieldValue?_of_playCount? {c : Cache} {scene : ObjectRef} {n : Int}
    (h : c.playCount? scene = some n) : ∃ v, c.fieldValue? scene "play_count" = some v := by
  obtain ⟨v, hv, -⟩ := Option.bind_eq_some_iff.1 h
  exact ⟨v, hv⟩

/-- What each change that a play may make keeps, the play keeps. The plays of the scene are changed only if
they are stored. -/
theorem countPlay_keeps {P : Cache → Prop} {c : Cache} {scene : ObjectRef} {now : String} (h : P c)
    (hcounted : ∀ n v, c.fieldValue? scene "play_count" = some v →
      P (c.applyToField scene "play_count" (.set (.int (wrapInt64 n)))))
    (hdated : ∀ d : Cache, P d → P (d.modifyField scene "last_played_at" fun _ => .set (.string now)).2)
    (hadded : ∀ d : Cache, ∀ stat ∈ ["total_play_count", "scenes_played"], P d →
      P (d.addToStat stat (Double.ofInt 1)).2)
    (hdropped : ∀ d : Cache, P d → P (d.dropStat "scenes_played").2) : P (c.countPlay scene now) := by
  have htotalled (d : Cache) (hd : P d) := hadded _ "total_play_count" (by simp) (hdated d hd)
  unfold countPlay
  cases hn : c.playCount? scene with
  | none => exact hdropped _ (htotalled c h)
  | some n =>
    obtain ⟨v, hv⟩ := fieldValue?_of_playCount? hn
    have hplayed := htotalled _ (hcounted (n + 1) v hv)
    dsimp only
    split
    · exact hadded _ "scenes_played" (by simp) hplayed
    · exact hplayed

end Cache

end MediaCache
