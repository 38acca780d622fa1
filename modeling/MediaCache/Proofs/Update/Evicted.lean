import MediaCache.Proofs.Store.CollectedReads
import MediaCache.Proofs.Store.FieldName
import MediaCache.Proofs.Update.Eviction

/-!
# Evictions are exact

An eviction takes all that it names and nothing else, it counts what it takes, and it leaves nothing
for a second one. Where the fields of a type are evicted, objects without an id are passed over.
-/

namespace MediaCache

namespace Cache

/-- A count that every step keeps in balance is in balance at the end. -/
theorem foldl_balanced {α : Type} {f : Nat × Cache → α → Nat × Cache} {m : Cache → Nat}
    (h : ∀ acc a, (f acc a).1 + m (f acc a).2 = acc.1 + m acc.2) (l : List α)
    (acc : Nat × Cache) : (l.foldl f acc).1 + m (l.foldl f acc).2 = acc.1 + m acc.2 :=
  List.foldlRecOn (motive := fun d => d.1 + m d.2 = acc.1 + m acc.2) l f rfl
    fun d hd a _ => (h d a).trans hd

/-! ## Queries -/

def Answers (docs : List Document) (name : String) : Prop :=
  ∃ doc ∈ docs, doc.rootField = baseFieldName name

instance (docs : List Document) (name : String) : Decidable (Answers docs name) :=
  inferInstanceAs (Decidable (∃ doc ∈ docs, doc.rootField = baseFieldName name))

theorem entry_dropQueries_of_answers {c : Cache} {docs : List Document} {name : String}
    (h : Answers docs name) : ((c.dropQueries docs).entry name).1 = none := by
  have hnamed : (docs.any fun doc => doc.rootField == baseFieldName name) = true := by
    obtain ⟨doc, hdoc, hfield⟩ := h
    exact List.any_eq_true.2 ⟨doc, hdoc, beq_iff_eq.2 hfield⟩
  rw [entry_dropQueries, hnamed]
  cases hv : (c.entry name).1 <;> simp [hv]

theorem dropQueries_eq_self {c : Cache} (hc : c.Indexed) {docs : List Document}
    (h : ∀ name, Answers docs name → c.root.get? name = none) : c.dropQueries docs = c := by
  have hstore := sameStore_dropQueries c docs
  refine eq_of_lookups hc (hc.of_sameStore hstore) hstore.policies hstore.retained (fun name => ?_)
    fun id => by rw [hstore.objects]
  rw [entry_dropQueries, if_neg]
  rintro ⟨hany, hsome⟩
  obtain ⟨doc, hdoc, hfield⟩ := List.any_eq_true.1 hany
  have hnone : (c.entry name).1 = none := h name ⟨doc, hdoc, beq_iff_eq.1 hfield⟩
  rw [hnone] at hsome
  cases hsome

@[simp]
theorem root_evictRoot (c : Cache) (field : String) :
    (c.evictRoot field).2.root = c.root.filter fun name _ => !(baseFieldName name == field) := by
  refine SortedMap.ext fun name => ?_
  have hentry : (c.evictRoot field).2.root.get? name = _ :=
    congrArg Prod.fst (entry_evictRoot c field name)
  rw [hentry, SortedMap.get?_filter]
  by_cases h : baseFieldName name = field <;> cases hv : c.root.get? name <;>
    simp [h, hv, entry, Option.filter]

theorem count_evictRoot (c : Cache) (field : String) :
    (c.evictRoot field).1 + (c.evictRoot field).2.root.size = c.root.size := by
  have hcount : (c.evictRoot field).1 = (c.rootEntries field).length := by
    simp only [evictRoot, modifyRoot, List.filter_map, List.length_map]
    congr 1
    exact List.filter_eq_self.2 fun _ _ => rfl
  rw [hcount, root_evictRoot]
  exact (List.length_eq_length_filter_add _).symm

theorem count_evictQueries (c : Cache) (docs : List Document) (options : Options) :
    (c.evictQueries docs options).1 + (c.evictQueries docs options).2.root.size = c.root.size := by
  have hfold := foldl_balanced (m := fun c => c.root.size)
    (f := fun (acc : Nat × Cache) doc =>
      (acc.1 + (acc.2.evictRoot doc.rootField).1, (acc.2.evictRoot doc.rootField).2))
    (fun acc doc => by rw [Nat.add_assoc, count_evictRoot]) docs (0, c)
  rw [Nat.zero_add] at hfold
  rw [← hfold]
  unfold evictQueries
  simp only
  split <;> rfl

theorem entry_evictQueries_of_answers {c : Cache} {docs : List Document} (options : Options)
    {name : String} (h : Answers docs name) :
    (c.evictQueries docs options).2.root.get? name = none := by
  rw [(sameRoot_evictQueries c docs options).root]
  exact entry_dropQueries_of_answers h

theorem entry_evictQueries_of_not_answers {c : Cache} {docs : List Document} (options : Options)
    {name : String} (h : ¬Answers docs name) :
    (c.evictQueries docs options).2.entry name = c.entry name :=
  entry_evictQueries_of_not_named fun doc hdoc hfield => h ⟨doc, hdoc, hfield⟩

theorem entry_dropQueries_of_not_answers {c : Cache} {docs : List Document} {name : String}
    (h : ¬Answers docs name) : (c.dropQueries docs).entry name = c.entry name := by
  rw [← (sameRoot_evictQueries c docs {}).entry]
  exact entry_evictQueries_of_not_answers {} h

@[simp]
theorem root_evictQueries (c : Cache) (docs : List Document) (options : Options) :
    (c.evictQueries docs options).2.root = c.root.filter fun name _ => !decide (Answers docs name) := by
  refine SortedMap.ext fun name => ?_
  rw [SortedMap.get?_filter]
  by_cases hname : Answers docs name
  · rw [entry_evictQueries_of_answers options hname]
    cases c.root.get? name <;> simp [hname, Option.filter]
  · have hsame : (c.evictQueries docs options).2.root.get? name = c.root.get? name :=
      congrArg Prod.fst (entry_evictQueries_of_not_answers options hname)
    rw [hsame]
    cases c.root.get? name <;> simp [hname, Option.filter]

theorem evictQueries_evictQueries {c : Cache} (hc : c.Indexed) (docs : List Document)
    (options : Options) :
    (c.evictQueries docs options).2.evictQueries docs options =
      (0, (c.evictQueries docs options).2) := by
  have hgone : ∀ name, Answers docs name → (c.evictQueries docs options).2.root.get? name = none :=
    fun name => entry_evictQueries_of_answers options
  have hcount := count_evictQueries (c.evictQueries docs options).2 docs options
  have hdropped : (c.dropQueries docs).Indexed := hc.of_sameStore (sameStore_dropQueries c docs)
  have hagain : ((c.evictQueries docs options).2.evictQueries docs options).2 =
      (c.evictQueries docs options).2 := by
    have heq := evictQueries_eq c docs options
    rw [evictQueries_eq]
    split
    · rename_i hcollect
      rw [if_pos hcollect] at heq
      rw [heq] at hgone ⊢
      rw [dropQueries_eq_self hdropped.collect hgone, collect_collect hdropped]
    · rename_i hcollect
      rw [if_neg hcollect] at heq
      rw [heq] at hgone ⊢
      exact dropQueries_eq_self hdropped hgone
  rw [hagain] at hcount
  exact Prod.ext (by omega) hagain

theorem readRoot_of_no_entry {c : Cache} {field : String} {args : Option Json}
    (hentry : c.root.get? (storeFieldName field args) = none)
    (hpolicy : ∀ t, c.policies.root field ≠ some (.readReference t)) :
    c.readRoot field args = .missing := by
  unfold readRoot
  simp only [hentry]
  split
  · exact absurd ‹_› (hpolicy _)
  · rfl
  · rfl

section

variable {c : Cache} {docs : List Document} {field : String} {args : Option Json}
  (hother : ¬Answers docs (storeFieldName field args))
include hother

@[simp]
theorem readRoot_dropQueries : (c.dropQueries docs).readRoot field args = c.readRoot field args :=
  (sameStore_dropQueries c docs).readRoot (entry_dropQueries_of_not_answers hother)

theorem readRoot_evictQueries_missing (options : Options) (hmissing : c.readRoot field args = .missing) :
    (c.evictQueries docs options).2.readRoot field args = .missing := by
  have hdropped := readRoot_dropQueries (c := c) hother
  rw [evictQueries_eq]
  split
  · by_cases hfalls : (c.dropQueries docs).FallsBackToUnreached field args
    · exact readRoot_collect_eq_missing hfalls
    · rw [readRoot_collect hfalls, hdropped, hmissing]
  · rw [hdropped, hmissing]

/-- A query that starts from its entry finds the same after others are evicted. -/
theorem readRoot_evictQueries (options : Options) {w : Json}
    (hentry : c.root.get? (storeFieldName field args) = some w) (hsource : c.source? field args = some w) :
    (c.evictQueries docs options).2.readRoot field args = c.readRoot field args := by
  have hstore := sameStore_dropQueries c docs
  have hsame : (c.dropQueries docs).root.get? (storeFieldName field args) = some w :=
    (congrArg Prod.fst (entry_dropQueries_of_not_answers hother)).trans hentry
  have hreached : ¬(c.dropQueries docs).FallsBackToUnreached field args := by
    rintro ⟨t, -, hpolicy, hunread, -⟩
    rw [hstore.policies] at hpolicy
    have hread := canRead_of_source? hpolicy hsource
    have hgone := hunread w hsame
    unfold canRead at hread hgone
    simp only [hstore.objects] at hgone
    rw [hread] at hgone
    cases hgone
  rw [← readRoot_dropQueries (c := c) hother, evictQueries_eq]
  split
  · exact readRoot_collect hreached
  · rfl

end

/-- Evicted queries are missing, whatever they are asked with, and all other entries stay.
Collection takes the objects that are no longer reached. Every entry that goes is counted once, and
a second eviction finds nothing to take. The root field of a query is a plain name, as it is of all
of `Document.all`. -/
theorem queries_evicted {c d : Cache} (hc : c.Reachable) {docs : List Document} {options : Options}
    {n : Nat} (hd : c.evictQueries docs options = (n, d)) :
    (∀ doc ∈ docs, IsFieldName doc.rootField →
      (∀ t, c.policies.root doc.rootField ≠ some (.readReference t)) →
        ∀ args, d.readQuery doc args = .missing) ∧
    d.root = c.root.filter (fun name _ => !decide (Answers docs name)) ∧
    (∀ name, ¬Answers docs name → d.selections.get? name = c.selections.get? name) ∧
    (options.collectAfterEvict = false → d.objects = c.objects) ∧
    (options.collectAfterEvict = true → ∀ id,
      ((c.dropQueries docs).Reaches id → d.objects.get? id = c.objects.get? id) ∧
      (¬(c.dropQueries docs).Reaches id → d.objects.get? id = none)) ∧
    n + d.root.size = c.root.size ∧
    d.evictQueries docs options = (0, d) := by
  obtain rfl : (c.evictQueries docs options).2 = d := congrArg Prod.snd hd
  obtain rfl : (c.evictQueries docs options).1 = n := congrArg Prod.fst hd
  have hstore := sameStore_dropQueries c docs
  refine ⟨fun doc hdoc hfield hpolicy args => ?_, root_evictQueries c docs options,
    fun name hname => congrArg Prod.snd (entry_evictQueries_of_not_answers options hname),
    fun hcollect => ?_, fun hcollect id => ⟨fun hreach => ?_, fun hreach => ?_⟩,
    count_evictQueries c docs options, evictQueries_evictQueries hc.indexed docs options⟩
  · -- Without an entry only a fallback could answer, and the policy has none.
    refine readRoot_of_no_entry (entry_evictQueries_of_answers options ⟨doc, hdoc, ?_⟩) ?_
    · rw [baseFieldName_storeFieldName hfield]
    · rwa [(sameRoot_evictQueries c docs options).policies, hstore.policies]
  · rw [evictQueries_eq, hcollect, if_neg (by decide), hstore.objects]
  · rw [evictQueries_eq, hcollect, if_pos rfl, get?_collect, if_pos hreach, hstore.objects]
  · rw [evictQueries_eq, hcollect, if_pos rfl, get?_collect, if_neg hreach]

def taggedPages : Cache :=
  (new .standard).run [
    .writeRoot "findTags" (some (.object [("page", .int 1)])) (.array [
      .object [("__typename", .string "Tag"), ("id", .string "1")]]),
    .writeRoot "findTags" (some (.object [("page", .int 2)])) (.array [
      .object [("__typename", .string "Tag"), ("id", .string "2")]]),
    .writeRoot "allTags" none (.array [reference "Tag:2"])]

def untaggedPages : Cache := (taggedPages.evictQueries [.findTags, .findTags] {}).2

/-- Both pages go, and with them the tag that only they listed. -/
theorem taggedPages_evicted :
    taggedPages.Reachable ∧ taggedPages.evictQueries [.findTags, .findTags] {} = (2, untaggedPages) ∧
      untaggedPages.readQuery .findTags (some (.object [("page", .int 1)])) = .missing ∧
      untaggedPages.objects.get? "Tag:1" = none ∧
      (untaggedPages.objects.get? "Tag:2").isSome = true := by
  have hreach : taggedPages.Reachable := ⟨_, _, rfl⟩
  have hd : taggedPages.evictQueries [.findTags, .findTags] {} = (2, untaggedPages) :=
    Prod.ext (by decide +kernel) rfl
  obtain ⟨hmissing, -, -, -, hcollected, -⟩ := queries_evicted hreach hd
  have hpolicy : ∀ t, taggedPages.policies.root Document.findTags.rootField ≠
      some (.readReference t) := by
    intro t h
    cases h
  have hkept : (taggedPages.dropQueries [.findTags, .findTags]).Reaches "Tag:2" :=
    ((mem_reachable_iff _ _).1 (by decide +kernel)).2
  have hlost : ¬(taggedPages.dropQueries [.findTags, .findTags]).Reaches "Tag:1" :=
    ((mem_removed_iff _ _).1 (by decide +kernel)).2
  refine ⟨hreach, hd, hmissing .findTags (by decide) (by decide +kernel) hpolicy _,
    (hcollected rfl _).2 hlost, ?_⟩
  rw [(hcollected rfl _).1 hkept]
  decide +kernel

/-! ## Fields of a type -/

def storedFields (c : Cache) : List (String × String) :=
  c.objects.entries.flatMap fun e => e.2.keys.map (e.1, ·)

theorem mem_storedFields_iff {c : Cache} {id field : String} :
    (id, field) ∈ c.storedFields ↔ ∃ r, c.objects.get? id = some r ∧ r.contains field = true := by
  simp only [storedFields, List.mem_flatMap, List.mem_map, Prod.mk.injEq]
  constructor
  · rintro ⟨⟨i, r⟩, hr, k, hk, rfl, rfl⟩
    exact ⟨r, (c.objects.get?_eq_some_iff_mem _ r).2 hr, (r.contains_iff_mem_keys k).2 hk⟩
  · rintro ⟨r, hr, hfield⟩
    exact ⟨(id, r), (c.objects.get?_eq_some_iff_mem id r).1 hr, field,
      (r.contains_iff_mem_keys field).1 hfield, rfl, rfl⟩

theorem nodup_storedFields (c : Cache) : c.storedFields.Nodup := by
  refine List.nodup_flatMap.2 ⟨fun e _ => ?_, ?_⟩
  · exact e.2.nodup_keys.map fun _ _ h => (Prod.mk.inj h).2
  · have hkeys : c.objects.entries.Pairwise fun a b => a.1 ≠ b.1 :=
      List.pairwise_map.1 c.objects.nodup_keys
    refine hkeys.imp fun {a b} hne f ha hb => hne ?_
    obtain ⟨_, -, rfl⟩ := List.mem_map.1 ha
    obtain ⟨_, -, heq⟩ := List.mem_map.1 hb
    exact (Prod.mk.inj heq).1.symm

theorem Trimmed.mem_storedFields {lost : String → String → Bool} {c d : Cache} (h : Trimmed lost c d)
    {id field : String} :
    (id, field) ∈ d.storedFields ↔ lost id field = false ∧ (id, field) ∈ c.storedFields := by
  rw [mem_storedFields_iff, mem_storedFields_iff, h.objects]
  cases c.objects.get? id with
  | none => simp
  | some r => cases hlost : lost id field <;> simp [SortedMap.contains, hlost]

theorem count_evictField (c : Cache) (obj : ObjectRef) (field : String) :
    (if (c.evictField obj field).1 then 1 else 0) + (c.evictField obj field).2.storedFields.length =
      c.storedFields.length := by
  cases hv : c.fieldValue? obj field with
  | none => simp [evictField, modifyField, hv]
  | some v =>
    have hremoved : (c.evictField obj field).1 = true := by
      simp [evictField, modifyField, hv, FieldUpdate.isChange]
    have hin : (obj.cacheId, field) ∈ c.storedFields := by
      obtain ⟨r, hr, hfield⟩ := Option.bind_eq_some_iff.1 hv
      exact mem_storedFields_iff.2 ⟨r, hr, Option.isSome_of_eq_some hfield⟩
    have hperm : (c.evictField obj field).2.storedFields.Perm
        (c.storedFields.erase (obj.cacheId, field)) := by
      refine (List.perm_ext_iff_of_nodup (nodup_storedFields _)
        ((nodup_storedFields c).erase _)).2 fun f => ?_
      rw [(nodup_storedFields c).mem_erase_iff, (trimmed_evictField c obj field).mem_storedFields,
        Bool.and_eq_false_iff, beq_eq_false_iff_ne, beq_eq_false_iff_ne, ← not_and_or, ne_eq,
        Prod.mk.injEq]
    have hpos := List.length_pos_of_mem hin
    rw [hremoved, hperm.length_eq, List.length_erase_of_mem hin, if_pos rfl]
    omega

theorem count_evictFields (c : Cache) (obj : ObjectRef) (names : List String) :
    (c.evictFields obj names).1 + (c.evictFields obj names).2.storedFields.length =
      c.storedFields.length := by
  have hfold := foldl_balanced (m := fun c => c.storedFields.length)
    (f := fun (acc : Nat × Cache) name =>
      (if (acc.2.evictField obj name).1 then acc.1 + 1 else acc.1, (acc.2.evictField obj name).2))
    (fun acc name => by
      have hstep := count_evictField acc.2 obj name
      simp only
      split at hstep
      · rw [if_pos ‹_›]
        omega
      · rw [if_neg ‹_›]
        omega) names (0, c)
  rw [Nat.zero_add] at hfold
  exact hfold

theorem count_evictTypeFields (c : Cache) (fields : TypeFields) (ignore : Option ObjectRef) :
    (c.evictTypeFields fields ignore).1 + (c.evictTypeFields fields ignore).2.storedFields.length =
      c.storedFields.length := by
  rw [← Nat.zero_add c.storedFields.length]
  unfold evictTypeFields
  refine foldl_balanced (m := fun c => c.storedFields.length) (fun acc row => ?_) _ (0, c)
  refine foldl_balanced (m := fun c => c.storedFields.length) (fun acc obj => ?_) _ acc
  by_cases h : ignore = some obj
  · simp only [if_pos h]
  · simp only [if_neg h]
    rw [Nat.add_assoc, count_evictFields]

theorem evictTypeFields_evictTypeFields {c : Cache} (hc : c.Indexed) (fields : TypeFields)
    (ignore : Option ObjectRef) :
    (c.evictTypeFields fields ignore).2.evictTypeFields fields ignore =
      (0, (c.evictTypeFields fields ignore).2) := by
  have hfirst := trimmed_evictTypeFields hc fields ignore
  have hindexed := hfirst.indexed hc
  have hsecond := trimmed_evictTypeFields hindexed fields ignore
  have hcount := count_evictTypeFields (c.evictTypeFields fields ignore).2 fields ignore
  have hagain : ((c.evictTypeFields fields ignore).2.evictTypeFields fields ignore).2 =
      (c.evictTypeFields fields ignore).2 := by
    refine eq_of_lookups hindexed (hsecond.indexed hindexed) hsecond.sameRoot.policies
      hsecond.sameRoot.retained hsecond.sameRoot.entry fun id => ?_
    rw [hsecond.objects, hfirst.objects, Option.map_map]
    congr 1
    funext r
    simp only [Function.comp_apply, Record.without_without, Bool.or_self]
  rw [hagain] at hcount
  exact Prod.ext (by omega) hagain

/-- Type-wide eviction takes the listed fields of each listed type from every stored object that has
an id, but for the ignored one, and nothing else. Every field that goes is counted once, and a second
eviction finds nothing to take. -/
theorem type_fields_evicted {c d : Cache} (hc : c.Reachable) {fields : TypeFields}
    {ignore : Option ObjectRef} {n : Nat} (hd : c.evictTypeFields fields ignore = (n, d)) :
    (∀ obj field, d.fieldValue? obj field =
      if obj.id ≠ "" ∧ ignore ≠ some obj ∧ fields.covers obj.typename field = true then none
      else c.fieldValue? obj field) ∧
    (∀ id, d.objects.contains id = c.objects.contains id) ∧
    d.root = c.root ∧ d.selections = c.selections ∧
    n + d.storedFields.length = c.storedFields.length ∧
    d.evictTypeFields fields ignore = (0, d) := by
  obtain rfl : (c.evictTypeFields fields ignore).2 = d := congrArg Prod.snd hd
  obtain rfl : (c.evictTypeFields fields ignore).1 = n := congrArg Prod.fst hd
  have htrimmed := trimmed_evictTypeFields hc.indexed fields ignore
  exact ⟨fieldValue?_evictTypeFields hc.indexed fields ignore, htrimmed.contains,
    htrimmed.sameRoot.root, htrimmed.sameRoot.selections, count_evictTypeFields c fields ignore,
    evictTypeFields_evictTypeFields hc.indexed fields ignore⟩

def namedTags : Cache :=
  (new .standard).run [
    .writeObject (.object [("__typename", .string "Tag"), ("id", .string "1"), ("name", .string "a")]),
    .writeObject (.object [("__typename", .string "Tag"), ("id", .string "2"), ("name", .string "b")])]

def tagNames : TypeFields := .ofRows [(.tag, ["name"])]

def unnamedTags : Cache := (namedTags.evictTypeFields tagNames (some ⟨.tag, "2"⟩)).2

theorem tagNames_evicted :
    namedTags.Reachable ∧ namedTags.evictTypeFields tagNames (some ⟨.tag, "2"⟩) = (1, unnamedTags) ∧
      namedTags.fieldValue? ⟨.tag, "1"⟩ "name" = some (.string "a") ∧
      unnamedTags.fieldValue? ⟨.tag, "1"⟩ "name" = none ∧
      unnamedTags.fieldValue? ⟨.tag, "2"⟩ "name" = some (.string "b") := by
  have hreach : namedTags.Reachable := ⟨_, _, rfl⟩
  have hd : namedTags.evictTypeFields tagNames (some ⟨.tag, "2"⟩) = (1, unnamedTags) :=
    Prod.ext (by decide +kernel) rfl
  obtain ⟨hfields, -⟩ := type_fields_evicted hreach hd
  refine ⟨hreach, hd, by decide +kernel, ?_, ?_⟩
  · rw [hfields, if_pos (by decide +kernel)]
  · rw [hfields, if_neg (by decide +kernel)]
    decide +kernel

def tagWithoutId : Cache :=
  (new .standard).run [
    .writeObject (.object [("__typename", .string "Tag"), ("id", .string ""), ("name", .string "x")])]

/-- A tag without an id is stored, and keeps the field that is evicted for all tags. -/
theorem unnamed_tag_passed_over :
    tagWithoutId.Reachable ∧ tagNames.covers .tag "name" = true ∧
      tagWithoutId.contains ⟨.tag, ""⟩ = true ∧
      (tagWithoutId.evictTypeFields tagNames none).1 = 0 ∧
      (tagWithoutId.evictTypeFields tagNames none).2.fieldValue? ⟨.tag, ""⟩ "name" =
        some (.string "x") :=
  ⟨⟨_, _, rfl⟩, by decide +kernel, by decide +kernel, by decide +kernel, by decide +kernel⟩

end Cache
end MediaCache
