import MediaCache.Proofs.Update.Eviction
import MediaCache.Proofs.Update.Planned
import MediaCache.Proofs.Update.Results

/-!
# Updates are runs

Every update is put together from operations of the cache: first those that write what the server
returned, then patches. A patch stores no new object, leaves the identity of the stored ones alone and
touches no look-up by id but to answer it `null`. What every patch keeps is kept by every plan.
-/

namespace MediaCache

theorem addNumber?_isScalar {v next : Json} {delta : Double} (h : addNumber? v delta = some next) :
    next.isScalar = true := by
  unfold addNumber? at h
  split at h
  · cases h
    rfl
  · obtain ⟨x, -, rfl⟩ := Option.map_eq_some_iff.1 h
    rfl

namespace Cache

def IsListField (field : String) : Prop := ∃ doc : Document, doc.IsList ∧ doc.rootField = field

def Op.Patches : Op → Prop
  | writeRoot _ _ data => data = .null
  | writeField _ field v => field ∉ identityFields ∧ v.isScalar = true
  | modifyField _ field change =>
    field ∉ identityFields ∧ ∀ v w, change v = .set w → w.isScalar = true
  | modifyRoot field change =>
    IsListField field ∧ ∀ name v w, change name v = .set w → v.RowFree → w.RowFree
  | evictObject _ => True
  | evictField _ field => field ∉ identityFields
  | evictRoot field => IsListField field
  | collect => True
  | _ => False

theorem Op.Patches.keepsRows {op : Op} (h : op.Patches) : op.KeepsRows := by
  cases op with
  | writeRoot field args data =>
    have hnull : data = .null := h
    subst hnull
    trivial
  | writeField obj field v => exact ⟨h.1, Json.sorted_of_isScalar h.2⟩
  | modifyField obj field change =>
    exact ⟨h.1, fun v w hw => Json.rowFree_of_isScalar (h.2 v w hw)⟩
  | modifyRoot field change => exact h.2
  | evictField obj field => exact h
  | evictObject | evictRoot | collect => trivial
  | _ => exact h.elim

inductive Patched (c : Cache) : Cache → Prop where
  | refl : Patched c c
  | op {d : Cache} (h : Patched c d) (op : Op) (hop : op.Patches) : Patched c (op.run d)

namespace Patched

variable {c d e : Cache}

theorem trans (h : Patched c d) (h' : Patched d e) : Patched c e := by
  induction h' with
  | refl => exact h
  | op _ op hop ih => exact ih.op op hop

theorem foldl {α : Type} {f : Cache → α → Cache} {l : List α}
    (hf : ∀ a ∈ l, ∀ c, Patched c (f c a)) (c : Cache) : Patched c (l.foldl f c) := by
  induction l generalizing c with
  | nil => exact refl
  | cons a rest ih =>
    have hfirst := hf a List.mem_cons_self c
    exact hfirst.trans (ih (fun b hb => hf b (List.mem_cons_of_mem _ hb)) _)

theorem keeps {P : Cache → Prop} (h : Patched c d)
    (hop : ∀ (op : Op) (c : Cache), op.Patches → P c → P (op.run c)) (hc : P c) : P d := by
  induction h with
  | refl => exact hc
  | op _ op hpatches ih => exact hop op _ hpatches ih

end Patched

/-! ## Evictions and patches -/

variable (c : Cache)

theorem patched_evictFields (obj : ObjectRef) {names : List String}
    (hnames : ∀ name ∈ names, name ∉ identityFields) : Patched c (c.evictFields obj names).2 := by
  rw [evictFields_eq]
  exact .foldl (fun name hname c => .op .refl (.evictField obj name) (hnames name hname)) c

theorem patched_evictTypeFields {fields : TypeFields} (hfields : fields.SparesIdentity)
    (ignore : Option ObjectRef) : Patched c (c.evictTypeFields fields ignore).2 := by
  rw [evictTypeFields_eq]
  refine .foldl (fun row hrow c => .foldl (fun obj _ c => ?_) c) c
  split
  · exact .refl
  · apply patched_evictFields
    intro name hname
    have hcovers := (TypeFields.covers_iff_rows fields row.1 name).2 ⟨row, hrow, rfl, hname⟩
    exact TypeFields.sparesIdentity_iff.1 hfields row.1 name hcovers

theorem patched_evictQueries {docs : List Document} (hdocs : ∀ doc ∈ docs, doc.IsList)
    (options : Options) : Patched c (c.evictQueries docs options).2 := by
  have hdrop : Patched c (c.dropQueries docs) := by
    refine .foldl (fun doc hdoc c => ?_) c
    exact .op .refl (.evictRoot doc.rootField) ⟨doc, hdocs doc hdoc, rfl⟩
  rw [evictQueries_eq]
  split
  · exact hdrop.op .collect trivial
  · exact hdrop

theorem patched_deleteObject (obj : ObjectRef) (lookup : Document) :
    Patched c (c.deleteObject obj lookup) := by
  have hnull : Patched c (c.writeRoot lookup.rootField (some (.object [("id", .string obj.id)])) .null) :=
    .op .refl (.writeRoot lookup.rootField _ .null) rfl
  exact hnull.op (.evictObject obj) trivial

theorem patched_appendReference (obj : ObjectRef) {list : Document} (hlist : list.IsList) :
    Patched c (c.appendReference obj list).2 := by
  refine .op .refl (.modifyRoot list.rootField _) ⟨⟨list, hlist, rfl⟩, fun name v w hw hfree => ?_⟩
  simp only at hw
  split at hw
  · rename_i items
    split at hw
    · cases hw
    · cases hw
      refine Json.rowFree_array_iff.2 fun item hitem => ?_
      rcases List.mem_append.1 hitem with hold | hnew
      · exact Json.rowFree_array_iff.1 hfree item hold
      · rw [List.mem_singleton.1 hnew]
        exact Json.rowFree_reference obj.cacheId
  · cases hw

theorem isListField_stats : IsListField Document.stats.rootField := ⟨.stats, by decide, rfl⟩

theorem patched_addToStat {stat : String} (hstat : stat ∉ identityFields) (delta : Double) :
    Patched c (c.addToStat stat delta).2 := by
  unfold Cache.addToStat
  simp only
  refine .op .refl (.modifyRoot Document.stats.rootField _)
    ⟨isListField_stats, fun name v w hw hfree => ?_⟩
  simp only at hw
  split at hw
  · split at hw
    · rename_i next hnext
      obtain ⟨old, -, hadded⟩ := Option.bind_eq_some_iff.1 hnext
      cases hw
      exact hfree.insert hstat (Json.rowFree_of_isScalar (addNumber?_isScalar hadded))
    · cases hw
  · cases hw

theorem patched_dropStat {stat : String} (hstat : stat ∉ identityFields) :
    Patched c (c.dropStat stat).2 := by
  unfold Cache.dropStat
  simp only
  refine .op .refl (.modifyRoot Document.stats.rootField _)
    ⟨isListField_stats, fun name v w hw hfree => ?_⟩
  simp only at hw
  split at hw
  · split at hw
    · cases hw
      exact hfree.erase hstat
    · cases hw
  · cases hw

variable {c}

theorem patched_applyToField {obj : ObjectRef} {field : String} {v : Json}
    (hv : c.fieldValue? obj field = some v) (hfield : field ∉ identityFields) {u : FieldUpdate}
    (hu : ∀ w, u = .set w → w.isScalar = true) : Patched c (c.applyToField obj field u) := by
  rw [applyToField_eq_modifyField hv]
  exact .op .refl (.modifyField obj field fun _ => u) ⟨hfield, fun _ => hu⟩

/-! ## Counters and plays -/

theorem patched_patchPerformer (delta : Double) (counts : PerformerCounts) (performer : ObjectRef) :
    Patched counts.cache (patchPerformer delta counts performer).cache := by
  have hcounter : counterField ∉ identityFields := by decide
  unfold Cache.patchPerformer
  split
  · exact .refl
  · rename_i v hv
    split
    · rename_i next hnext
      refine patched_applyToField (u := .set next) hv hcounter fun w hw => ?_
      cases hw
      exact addNumber?_isScalar hnext
    · exact patched_applyToField (u := .delete) hv hcounter fun w hw => by cases hw

theorem patched_patchPerformers (delta : Double) (performers : List ObjectRef)
    (counts : PerformerCounts) :
    Patched counts.cache (performers.foldl (patchPerformer delta) counts).cache := by
  induction performers generalizing counts with
  | nil => exact .refl
  | cons performer rest ih => exact (patched_patchPerformer delta counts performer).trans (ih _)

variable (c)

theorem patched_spreadCounter (target : CounterTarget) (obj : ObjectRef) (op : CounterOp) :
    Patched c (c.spreadCounter target obj op).2 := by
  have htotal : totalCount ∉ identityFields := by decide
  unfold Cache.spreadCounter
  split
  · rename_i fragment _
    have hperformers := patched_patchPerformers (Double.ofInt (op.delta (countIn fragment)))
      (performersIn fragment) { cache := c }
    exact hperformers.trans (patched_addToStat _ htotal _)
  · have hfields : (TypeFields.ofRows [(.performer, [counterField])]).SparesIdentity :=
      TypeFields.sparesIdentity_ofRows (by decide)
    exact (patched_evictTypeFields c hfields none).trans (patched_dropStat _ htotal)

theorem patched_patchCounter (target : CounterTarget) (id : String) (op : CounterOp) (value : Int)
    (options : Options) : Patched c (c.patchCounter target id op value options).2 := by
  have hspread := patched_spreadCounter c target ⟨target.typename, id⟩ op
  have hwritten := hspread.op (.writeField ⟨target.typename, id⟩ counterField (.int value))
    ⟨by decide, rfl⟩
  exact hwritten.trans (patched_evictQueries _ (Impact.isList_counterQueries target.family) options)

theorem patched_countPlay (scene : ObjectRef) (now : String) :
    Patched c (c.countPlay scene now) := by
  have hidentity : ∀ stat ∈ ["total_play_count", "scenes_played"], stat ∉ identityFields := by decide
  refine countPlay_keeps (P := Patched c) .refl (fun n v hv => ?_) (fun d hd => ?_)
    (fun d stat hstat hd => hd.trans (patched_addToStat _ (hidentity stat hstat) _))
    fun d hd => hd.trans (patched_dropStat _ (hidentity _ (by simp)))
  · refine patched_applyToField hv (by decide) fun w hw => ?_
    cases hw
    rfl
  · refine hd.trans (.op .refl (.modifyField scene "last_played_at" _) ⟨by decide, fun v w hw => ?_⟩)
    cases hw
    rfl

end Cache

/-! ## Plans -/

/-- The step names no field of identity, replaces fields by scalars and names lists only where lists
are meant. -/
def Step.Sound : Step → Prop
  | appendReference _ list => list.IsList
  | addToStat stat _ => stat ∉ identityFields
  | evictField _ field => field ∉ identityFields
  | evictTypeFields fields _ => fields.SparesIdentity
  | evictQueries docs => ∀ doc ∈ docs, doc.IsList
  | replaceField _ field v => field ∉ identityFields ∧ v.isScalar = true
  | addToField _ field _ => field ∉ identityFields
  | deleteObject _ _ | evictObject _ | countPlay _ | patchCounter .. => True

namespace Plan

def Sound (plan : Plan) : Prop := ∀ step ∈ plan, step.Sound

end Plan

theorem Step.Planned.sound {step : Step} {m : Mutation} {result : Json} (h : step.Planned m result) :
    step.Sound := by
  cases step with
  | appendReference obj list =>
    obtain ⟨family, -, hlist, -⟩ := h
    exact Impact.isList_listQuery family list hlist
  | evictQueries docs => exact fun doc hdoc => (h doc hdoc).1
  | replaceField obj field v =>
    obtain ⟨hfield, time, -, rfl⟩ := h
    exact ⟨hfield, rfl⟩
  | addToStat stat delta => exact h
  | evictField obj field => exact h
  | evictTypeFields fields ignore => exact h
  | addToField obj field delta => exact h
  | deleteObject | evictObject | countPlay | patchCounter => trivial

theorem Mutation.plan_sound (m : Mutation) (result : Json) : (m.plan result).Sound :=
  fun step hstep => (m.plan_planned result step hstep).sound

namespace Cache

theorem patched_step {step : Step} (hstep : step.Sound) (options : Options) (now : String)
    (c : Cache) : Patched c (step.run options now c) := by
  cases step with
  | appendReference obj list => exact patched_appendReference c obj hstep
  | addToStat stat delta => exact patched_addToStat c hstep delta
  | deleteObject obj lookup => exact patched_deleteObject c obj lookup
  | evictObject obj => exact .op .refl (.evictObject obj) trivial
  | evictField obj field => exact .op .refl (.evictField obj field) hstep
  | evictTypeFields fields ignore => exact patched_evictTypeFields c hstep ignore
  | evictQueries docs => exact patched_evictQueries c hstep options
  | replaceField obj field v =>
    refine .op .refl (.modifyField obj field _) ⟨hstep.1, fun _ w hw => ?_⟩
    cases hw
    exact hstep.2
  | addToField obj field delta =>
    refine .op .refl (.modifyField obj field _) ⟨hstep, fun v w hw => ?_⟩
    simp only at hw
    split at hw
    · rename_i next hnext
      cases hw
      exact addNumber?_isScalar hnext
    · cases hw
  | countPlay scene => exact patched_countPlay c scene now
  | patchCounter target id op value => exact patched_patchCounter c target id op value options

theorem patched_plan {plan : Plan} (hplan : plan.Sound) (options : Options) (now : String)
    (c : Cache) : Patched c (plan.run options now c) :=
  .foldl (fun _ hstep c => patched_step (hplan _ hstep) options now c) c

/-- What holds of every write of an accepted result and is kept by the steps of its plan holds after the
mutation. -/
theorem applyMutation_steps {P : Cache → Prop} {m : Mutation} {result : Option Json} {options : Options}
    {now : String}
    (hwrite : ∀ v ∈ result, m.kind.accepts v = true → ∀ c fields, .object fields ∈ returnedValues v →
      P c → P (c.writeObject (typedResult m.kind.subject fields)).2)
    (hstep : ∀ v ∈ result, ∀ step ∈ m.plan v, ∀ c, P c → P (step.run options now c))
    {c : Cache} (hc : P c) : P (c.applyMutation options now m result).2 := by
  unfold Cache.applyMutation
  split
  · exact hc
  · rename_i v hv
    obtain ⟨hin, haccepts⟩ := Option.filter_eq_some_iff.1 hv
    have hwritten := writeResult_keeps (hwrite v hin haccepts) hc
    exact List.foldlRecOn (m.plan v) _ hwritten fun c hc step hmem => hstep v hin step hmem c hc

theorem applyMutation_keeps {P : Cache → Prop} {m : Mutation} {result : Option Json}
    (hwrite : ∀ v ∈ result, m.kind.accepts v = true → ∀ c fields, .object fields ∈ returnedValues v →
      P c → P (c.writeObject (typedResult m.kind.subject fields)).2)
    (hop : ∀ (op : Op) (c : Cache), op.Patches → P c → P (op.run c)) (options : Options)
    (now : String) {c : Cache} (hc : P c) : P (c.applyMutation options now m result).2 :=
  applyMutation_steps hwrite
    (fun v _ step hmem c hc => (patched_step (m.plan_sound v step hmem) options now c).keeps hop hc) hc

theorem Reachable.applyMutation {c : Cache} (h : c.Reachable) (options : Options) (now : String)
    (m : Mutation) (result : Option Json) : (c.applyMutation options now m result).2.Reachable :=
  applyMutation_keeps (fun _ _ _ _ _ _ hc => hc.op (.writeObject _)) (fun op _ _ hc => hc.op op)
    options now h

theorem Indexed.applyMutation {c : Cache} (h : c.Indexed) (options : Options) (now : String)
    (m : Mutation) (result : Option Json) : (c.applyMutation options now m result).2.Indexed :=
  applyMutation_keeps (P := Indexed) (fun _ _ _ _ _ _ hc => hc.writeObject _) (fun op _ _ hc => hc.op op)
    options now h

theorem OneCopy.applyMutation {c : Cache} (h : c.OneCopy) (options : Options) (now : String)
    (m : Mutation) {result : Option Json} (hresult : ∀ v ∈ result, v.Sorted) :
    (c.applyMutation options now m result).2.OneCopy := by
  refine applyMutation_keeps (fun v hv _ c fields hin hc => ?_) (fun op _ hop hc => hc.op hop.keepsRows)
    options now h
  exact hc.writeObject (sorted_typedResult _ (sorted_of_mem_returnedValues (hresult v hv) hin))

end Cache

end MediaCache
