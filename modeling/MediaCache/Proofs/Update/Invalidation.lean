import MediaCache.Proofs.Store.FieldName
import MediaCache.Proofs.Store.Prune
import MediaCache.Proofs.Update.Statistics
import MediaCache.Update.Plan

/-!
# Invalidations

Most steps take objects and fields away and change root entries one by one, whatever the cache holds.
Such steps commute, and they never add a reference.
-/

namespace MediaCache

abbrev Entry := Option Json × Option Shape

inductive EntryChange where
  | keep
  | drop (docs : List Document)
  | answerNull (obj : ObjectRef) (lookup : Document)
  | add (stat : String) (delta : Double)

structure Invalidation where
  loss : Loss
  entries : EntryChange

/-- What a step does, when that does not depend on what is stored. -/
def Step.invalidation? : Step → Option Invalidation
  | addToStat stat delta => some ⟨.nothing, .add stat delta⟩
  | deleteObject obj lookup => some ⟨.ofObject obj, .answerNull obj lookup⟩
  | evictObject obj => some ⟨.ofObject obj, .keep⟩
  | evictField obj field => some ⟨.ofField obj field, .keep⟩
  | evictTypeFields fields ignore => some ⟨.ofTypes fields ignore, .keep⟩
  | evictQueries docs => some ⟨.nothing, .drop docs⟩
  | _ => none

namespace EntryChange

def NamedBy (docs : List Document) (name : String) : Prop :=
  (docs.any fun doc => doc.rootField == baseFieldName name) = true

instance (docs : List Document) (name : String) : Decidable (NamedBy docs name) :=
  inferInstanceAs (Decidable (_ = _))

def on (change : EntryChange) (name : String) (e : Entry) : Entry :=
  match change with
  | keep => e
  | drop docs => if NamedBy docs name ∧ e.1.isSome then (none, none) else e
  | answerNull obj lookup =>
    if name = Cache.lookupName obj lookup then (some .null, some .leaf) else e
  | add stat delta =>
    if baseFieldName name = Document.stats.rootField then
      (e.1.map (Cache.addedStat stat delta), e.2)
    else e

def Sound : EntryChange → Prop
  | keep => True
  | drop docs => ∀ doc ∈ docs, doc ∈ Document.all ∧ doc.singleObject = none
  | answerNull _ lookup => lookup ∈ Document.all ∧ lookup.singleObject.isSome = true
  | add _ delta => delta.isWhole = true

end EntryChange

/-! ## Names of look-ups -/

theorem Document.isFieldName_of_mem {doc : Document} (h : doc ∈ Document.all) :
    IsFieldName doc.rootField := by
  have hall : (Document.all.all fun doc => decide (IsFieldName doc.rootField)) = true := by decide +kernel
  exact of_decide_eq_true (List.all_eq_true.1 hall doc h)

theorem rootField_ne_lookupName {lookup doc : Document} (hlookup : lookup ∈ Document.all)
    (hsingle : lookup.singleObject.isSome = true) (hdoc : doc ∈ Document.all)
    (hlist : doc.singleObject = none) (obj : ObjectRef) :
    baseFieldName (Cache.lookupName obj lookup) ≠ doc.rootField := by
  have hall : ∀ lookup ∈ Document.all, lookup.singleObject.isSome = true → ∀ doc ∈ Document.all,
      doc.singleObject = none → lookup.rootField ≠ doc.rootField := by decide
  rw [Cache.lookupName, baseFieldName_storeFieldName (Document.isFieldName_of_mem hlookup)]
  exact hall lookup hlookup hsingle doc hdoc hlist

/-! ## Entries -/

/-- The entry of the statistics, if it is one, holds integers. -/
def IntegerEntry (name : String) (e : Entry) : Prop :=
  baseFieldName name = Document.stats.rootField → ∀ v, e.1 = some v → v.IntegerMembers

namespace EntryChange

theorem integerEntry_on {change : EntryChange} (h : change.Sound) {name : String} {e : Entry}
    (he : IntegerEntry name e) : IntegerEntry name (change.on name e) := by
  intro hstats v hv
  cases change with
  | keep => exact he hstats v hv
  | drop docs =>
    simp only [on] at hv
    split at hv
    · cases hv
    · exact he hstats v hv
  | answerNull obj lookup =>
    simp only [on] at hv
    split at hv
    · cases hv
      trivial
    · exact he hstats v hv
  | add stat delta =>
    simp only [on] at hv
    rw [if_pos hstats] at hv
    obtain ⟨w, hw, rfl⟩ := Option.map_eq_some_iff.1 hv
    exact Cache.integerMembers_addedStat (he hstats w hw) stat h

theorem references_on (change : EntryChange) {name : String} {e : Entry} {v : Json} {id : String}
    (hv : (change.on name e).1 = some v) (hid : id ∈ v.references) :
    ∃ w, e.1 = some w ∧ id ∈ w.references := by
  cases change with
  | keep => exact ⟨v, hv, hid⟩
  | drop docs =>
    simp only [on] at hv
    split at hv
    · cases hv
    · exact ⟨v, hv, hid⟩
  | answerNull obj lookup =>
    simp only [on] at hv
    split at hv
    · cases hv
      cases hid
    · exact ⟨v, hv, hid⟩
  | add stat delta =>
    simp only [on] at hv
    split at hv
    · obtain ⟨w, hw, rfl⟩ := Option.map_eq_some_iff.1 hv
      exact ⟨w, hw, Cache.references_addedStat stat delta w id hid⟩
    · exact ⟨v, hv, hid⟩

/-! ### Pairs of changes -/

variable {name : String} {e : Entry}

theorem drop_drop (docs docs' : List Document) :
    (drop docs).on name ((drop docs').on name e) = (drop docs').on name ((drop docs).on name e) := by
  obtain ⟨v, s⟩ := e
  simp only [on]
  by_cases h : NamedBy docs name <;> by_cases h' : NamedBy docs' name <;> cases v <;> simp [h, h']

theorem answerNull_answerNull (o p : ObjectRef) (a b : Document) :
    (answerNull o a).on name ((answerNull p b).on name e) =
      (answerNull p b).on name ((answerNull o a).on name e) := by
  simp only [on]
  by_cases ho : name = Cache.lookupName o a <;> by_cases hp : name = Cache.lookupName p b <;>
    simp [ho, hp]

theorem drop_answerNull {docs : List Document} (hdocs : (drop docs).Sound) {obj : ObjectRef}
    {lookup : Document} (hlookup : (answerNull obj lookup).Sound) :
    (drop docs).on name ((answerNull obj lookup).on name e) =
      (answerNull obj lookup).on name ((drop docs).on name e) := by
  simp only [on]
  by_cases hname : name = Cache.lookupName obj lookup
  · have hnot : ¬NamedBy docs name := by
      intro hnamed
      obtain ⟨doc, hdoc, hfield⟩ := List.any_eq_true.1 hnamed
      rw [beq_iff_eq, hname] at hfield
      exact rootField_ne_lookupName hlookup.1 hlookup.2 (hdocs doc hdoc).1 (hdocs doc hdoc).2 obj
        hfield.symm
    simp only [if_pos hname, hnot, false_and, if_false]
  · simp only [if_neg hname]

theorem drop_add (docs : List Document) (stat : String) (delta : Double) :
    (drop docs).on name ((add stat delta).on name e) =
      (add stat delta).on name ((drop docs).on name e) := by
  obtain ⟨v, s⟩ := e
  simp only [on]
  by_cases h : NamedBy docs name <;>
    by_cases hstats : baseFieldName name = Document.stats.rootField <;> cases v <;> simp [h, hstats]

theorem answerNull_add {obj : ObjectRef} {lookup : Document}
    (hlookup : (answerNull obj lookup).Sound) (stat : String) (delta : Double) :
    (answerNull obj lookup).on name ((add stat delta).on name e) =
      (add stat delta).on name ((answerNull obj lookup).on name e) := by
  simp only [on]
  by_cases hname : name = Cache.lookupName obj lookup
  · have hnot : baseFieldName name ≠ Document.stats.rootField := by
      rw [hname]
      exact rootField_ne_lookupName hlookup.1 hlookup.2 (by decide) rfl obj
    rw [if_pos hname, if_pos hname, if_neg hnot]
  · rw [if_neg hname, if_neg hname]

theorem add_add {s t : String} {a b : Double} (ha : (add s a).Sound) (hb : (add t b).Sound)
    (he : IntegerEntry name e) :
    (add s a).on name ((add t b).on name e) = (add t b).on name ((add s a).on name e) := by
  obtain ⟨v, shape⟩ := e
  simp only [on]
  by_cases hstats : baseFieldName name = Document.stats.rootField
  · simp only [if_pos hstats]
    cases v with
    | none => rfl
    | some v =>
      simp only [Option.map_some]
      rw [Cache.addedStat_comm (he hstats v rfl) s t ha hb]
  · simp only [if_neg hstats]

theorem on_comm {a b : EntryChange} (ha : a.Sound) (hb : b.Sound) (he : IntegerEntry name e) :
    a.on name (b.on name e) = b.on name (a.on name e) := by
  cases a with
  | keep => rfl
  | drop docs =>
    cases b with
    | keep => rfl
    | drop docs' => exact drop_drop docs docs'
    | answerNull obj lookup => exact drop_answerNull ha hb
    | add stat delta => exact drop_add docs stat delta
  | answerNull obj lookup =>
    cases b with
    | keep => rfl
    | drop docs => exact (drop_answerNull hb ha).symm
    | answerNull p other => exact answerNull_answerNull obj p lookup other
    | add stat delta => exact answerNull_add ha stat delta
  | add stat delta =>
    cases b with
    | keep => rfl
    | drop docs => exact (drop_add docs stat delta).symm
    | answerNull obj lookup => exact (answerNull_add hb stat delta).symm
    | add t b => exact add_add ha hb he

end EntryChange

/-! ## Whole steps -/

namespace Invalidation

/-- The second cache is what the invalidation leaves of the first. -/
structure Takes (i : Invalidation) (c d : Cache) : Prop where
  policies : d.policies = c.policies
  retained : d.retained = c.retained
  objects : i.loss.Takes c d
  entries : ∀ name, d.entry name = i.entries.on name (c.entry name)
  indexed : d.Indexed

theorem takes_of_sameRoot {l : Loss} {c d : Cache} (h : Cache.SameRoot c d) (hobjects : l.Takes c d)
    (hd : d.Indexed) : (⟨l, .keep⟩ : Invalidation).Takes c d :=
  ⟨h.policies, h.retained, hobjects, h.entry, hd⟩

theorem takes_of_sameStore {change : EntryChange} {c d : Cache} (h : Cache.SameStore c d)
    (hentries : ∀ name, d.entry name = change.on name (c.entry name)) (hc : c.Indexed) :
    (⟨.nothing, change⟩ : Invalidation).Takes c d := by
  refine ⟨h.policies, h.retained, fun id => ?_, hentries, hc.of_sameStore h⟩
  rw [h.objects]
  exact Loss.takes_nothing c id

end Invalidation

def Options.bare : Options := { collectAfterEvict := false }

theorem Step.takes_invalidation {step : Step} {i : Invalidation} (h : step.invalidation? = some i)
    (now : String) {c : Cache} (hc : c.Indexed) : i.Takes c (step.run .bare now c) := by
  cases step <;> cases h
  case addToStat stat delta =>
    exact Invalidation.takes_of_sameStore (Cache.sameStore_addToStat c stat delta)
      (Cache.entry_addToStat c stat delta) hc
  case deleteObject obj lookup =>
    refine ⟨?_, ?_, Cache.takes_deleteObject c obj lookup, Cache.entry_deleteObject c obj lookup,
      hc.deleteObject obj lookup⟩
    · exact (Cache.sameRoot_evictObject _ obj).policies
    · exact (Cache.sameRoot_evictObject _ obj).retained
  case evictObject obj =>
    exact Invalidation.takes_of_sameRoot (Cache.sameRoot_evictObject c obj)
      (Cache.takes_evictObject c obj) (hc.evictObject obj)
  case evictField obj field =>
    exact Invalidation.takes_of_sameRoot (Cache.sameRoot_modifyField c obj field _).1
      (Cache.takes_evictField c obj field) (hc.modifyField obj field _)
  case evictTypeFields fields ignore =>
    have htrimmed := Cache.trimmed_evictTypeFields hc fields ignore
    exact Invalidation.takes_of_sameRoot htrimmed.sameRoot htrimmed.takes (htrimmed.indexed hc)
  case evictQueries docs =>
    have hrun : Step.run .bare now c (.evictQueries docs) = c.dropQueries docs :=
      Cache.evictQueries_eq c docs .bare
    rw [hrun]
    exact Invalidation.takes_of_sameStore (Cache.sameStore_dropQueries c docs)
      (Cache.entry_dropQueries c docs) hc

namespace Invalidation

/-- Two invalidations commute on statistics of integers. -/
theorem takes_comm {i j : Invalidation} (hi : i.entries.Sound) (hj : j.entries.Sound)
    {c ci cj cij cji : Cache} (hstats : ∀ name, IntegerEntry name (c.entry name))
    (h₁ : i.Takes c ci) (h₂ : j.Takes ci cij) (h₃ : j.Takes c cj) (h₄ : i.Takes cj cji) :
    cij = cji := by
  refine Cache.eq_of_lookups h₄.indexed h₂.indexed ?_ ?_ ?_ ?_
  · rw [h₂.policies, h₁.policies, h₄.policies, h₃.policies]
  · rw [h₂.retained, h₁.retained, h₄.retained, h₃.retained]
  · intro name
    rw [h₂.entries, h₁.entries, h₄.entries, h₃.entries]
    exact EntryChange.on_comm hj hi (hstats name)
  · intro id
    rw [h₂.objects, h₁.objects, h₄.objects, h₃.objects, Loss.left_left, Loss.left_left,
      Loss.union_comm]

variable {i : Invalidation} {c d : Cache}

theorem Takes.integerEntries (h : i.Takes c d) (hi : i.entries.Sound)
    (hstats : ∀ name, IntegerEntry name (c.entry name)) :
    ∀ name, IntegerEntry name (d.entry name) := by
  intro name
  rw [h.entries]
  exact EntryChange.integerEntry_on hi (hstats name)

theorem Takes.reaches (h : i.Takes c d) {id : String} (hid : d.Reaches id) : c.Reaches id := by
  refine Cache.Reaches.mono (fun id hroot => ?_) (fun id next hnext => ?_) hid
  · rw [Cache.mem_rootReferences_iff] at hroot ⊢
    rcases hroot with hretained | ⟨name, v, hv, hin⟩
    · exact .inl (h.retained ▸ hretained)
    · rw [h.entries] at hv
      obtain ⟨w, hw, hin'⟩ := i.entries.references_on hv hin
      exact .inr ⟨name, w, hw, hin'⟩
  · rw [Cache.mem_referencesOf_iff] at hnext ⊢
    obtain ⟨r, key, v, hr, hv, hin⟩ := hnext
    rw [h.objects id, Loss.left] at hr
    split at hr
    · cases hr
    · obtain ⟨old, hold, rfl⟩ := Option.map_eq_some_iff.1 hr
      rw [Record.get?_without] at hv
      split at hv
      · cases hv
      · exact ⟨old, key, v, hold, hv, hin⟩

theorem Takes.pruned {c' d' : Cache} (h : i.Takes c d) (h' : i.Takes c' d') (hc : Cache.Pruned c' c) :
    Cache.Pruned d' d := by
  have hentries : ∀ name, d'.entry name = d.entry name := by
    intro name
    rw [h'.entries, h.entries, hc.sameRoot.entry]
  refine ⟨⟨?_, ?_, ?_, ?_⟩, fun id => ?_, h'.indexed⟩
  · rw [h'.policies, h.policies, hc.sameRoot.policies]
  · exact SortedMap.ext fun name => congrArg Prod.fst (hentries name)
  · exact SortedMap.ext fun name => congrArg Prod.snd (hentries name)
  · rw [h'.retained, h.retained, hc.sameRoot.retained]
  · rw [h'.objects id, h.objects id]
    rcases hc.objects id with hsame | ⟨hnone, hlost⟩
    · left
      rw [hsame]
    · right
      refine ⟨?_, fun hid => hlost (h.reaches hid)⟩
      rw [hnone, Loss.left]
      split <;> rfl

end Invalidation

end MediaCache
