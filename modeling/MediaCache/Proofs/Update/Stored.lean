import MediaCache.Proofs.Store.Stored
import MediaCache.Proofs.Update.Runs

/-!
# What mutations store

A mutation stores what it returned, and its plan writes references, counters, the time of a play and what
the mutation says itself. So what a cache holds stays of one kind when all of these are of it.
-/

namespace MediaCache

/-! ## Values that plans write -/

structure Json.Lasting (good : Json → Prop) : Prop where
  null : good .null
  text : ∀ s, good (.string s)
  integer : ∀ {i}, inInt64 i = true → good (.int i)
  sum : ∀ {v delta w}, addNumber? v delta = some w → good w
  append : ∀ {items} id, good (.array items) → good (.array (items ++ [reference id]))
  member : ∀ {fields w} key, good (.object fields) → good w → w.isScalar = true →
    good (.object (Assoc.insert key w fields))
  without : ∀ {fields} key, good (.object fields) → good (.object (Assoc.erase key fields))

def Step.Writes (good : Json → Prop) : Step → Prop
  | replaceField _ _ v => good v
  | patchCounter _ _ _ value => good (.int value)
  | _ => True

theorem Mutation.plan_writes {good : Json → Prop} (m : Mutation) (result : Json)
    (htime : ∀ time ∈ m.resumeTime?, good (.number (.double time)))
    (hcounter : ∀ i, result.asInt64? = some i → good (.int i)) :
    ∀ step ∈ m.plan result, step.Writes good := by
  intro step hstep
  have hplanned := m.plan_planned result step hstep
  cases step with
  | replaceField obj field v =>
    obtain ⟨-, time, hmember, rfl⟩ := hplanned
    exact htime time hmember
  | patchCounter target id op value => exact hcounter value hplanned
  | _ => trivial

namespace Cache

variable {c : Cache} {good : Json → Prop}

/-! ## Steps -/

namespace Stores

theorem foldl {α : Type} {f : Cache → α → Cache} {l : List α} (h : c.Stores good)
    (hf : ∀ a ∈ l, ∀ c : Cache, c.Stores good → (f c a).Stores good) : (l.foldl f c).Stores good :=
  List.foldlRecOn l f h fun c hc a ha => hf a ha c hc

theorem evictFields (h : c.Stores good) (obj : ObjectRef) (names : List String) :
    (c.evictFields obj names).2.Stores good := by
  rw [evictFields_eq]
  exact h.foldl fun name _ c hc => hc.evictField obj name

theorem evictTypeFields (h : c.Stores good) (fields : TypeFields) (ignore : Option ObjectRef) :
    (c.evictTypeFields fields ignore).2.Stores good := by
  rw [evictTypeFields_eq]
  refine h.foldl fun row _ c hc => hc.foldl fun obj _ c hc => ?_
  split
  · exact hc
  · exact hc.evictFields obj row.2

theorem evictQueries (h : c.Stores good) (docs : List Document) (options : Options) :
    (c.evictQueries docs options).2.Stores good := by
  have hdrop : (c.dropQueries docs).Stores good := h.foldl fun doc _ c hc => hc.evictRoot doc.rootField
  rw [evictQueries_eq]
  split
  · exact hdrop.collect
  · exact hdrop

theorem deleteObject (hlasting : Json.Lasting good) (h : c.Stores good) (obj : ObjectRef)
    (lookup : Document) : (c.deleteObject obj lookup).Stores good := by
  have hnull : good Json.null.normalized := by simpa only [Json.normalized] using hlasting.null
  refine evictObject (h.writeRoot hlasting.text _ _ hnull fun e he => ?_) obj
  cases he

theorem appendReference (hlasting : Json.Lasting good) (h : c.Stores good) (obj : ObjectRef)
    (list : Document) : (c.appendReference obj list).2.Stores good := by
  refine h.modifyRoot list.rootField ?_
  intro name v w hv hw
  split at hw
  · split at hw
    · cases hw
    · cases hw
      exact hlasting.append _ hv
  · cases hw

theorem addToStat (hlasting : Json.Lasting good) (h : c.Stores good) (stat : String) (delta : Double) :
    (c.addToStat stat delta).2.Stores good := by
  unfold Cache.addToStat
  simp only
  refine h.modifyRoot Document.stats.rootField ?_
  intro name v w hv hw
  split at hw
  · split at hw
    · rename_i next hnext
      obtain ⟨old, -, hadded⟩ := Option.bind_eq_some_iff.1 hnext
      cases hw
      exact hlasting.member stat hv (hlasting.sum hadded) (addNumber?_isScalar hadded)
    · cases hw
  · cases hw

theorem dropStat (hlasting : Json.Lasting good) (h : c.Stores good) (stat : String) :
    (c.dropStat stat).2.Stores good := by
  unfold Cache.dropStat
  simp only
  refine h.modifyRoot Document.stats.rootField ?_
  intro name v w hv hw
  split at hw
  · split at hw
    · cases hw
      exact hlasting.without stat hv
    · cases hw
  · cases hw

theorem addToField (hlasting : Json.Lasting good) (h : c.Stores good) (obj : ObjectRef) (field : String)
    (delta : Double) :
    (c.modifyField obj field fun v =>
      match addNumber? v delta with
      | some next => .set next
      | none => .keep).2.Stores good := by
  refine h.modifyField obj field fun v w _ hw => ?_
  split at hw
  · rename_i next hnext
    cases hw
    exact hlasting.sum hnext
  · cases hw

theorem patchPerformer (hlasting : Json.Lasting good) (delta : Double) {counts : PerformerCounts}
    (h : counts.cache.Stores good) (performer : ObjectRef) :
    (Cache.patchPerformer delta counts performer).cache.Stores good := by
  unfold Cache.patchPerformer
  split
  · exact h
  · split
    · rename_i next hnext
      refine h.applyToField performer counterField (u := .set next) fun w hw => ?_
      cases hw
      exact hlasting.sum hnext
    · exact h.applyToField performer counterField (u := .delete) fun w hw => by cases hw

theorem patchPerformers (hlasting : Json.Lasting good) (delta : Double) (performers : List ObjectRef)
    {counts : PerformerCounts} (h : counts.cache.Stores good) :
    (performers.foldl (Cache.patchPerformer delta) counts).cache.Stores good :=
  List.foldlRecOn (motive := fun counts : PerformerCounts => counts.cache.Stores good) performers _ h
    fun _ hc performer _ => patchPerformer hlasting delta hc performer

theorem spreadCounter (hlasting : Json.Lasting good) (h : c.Stores good) (target : CounterTarget)
    (obj : ObjectRef) (op : CounterOp) : (c.spreadCounter target obj op).2.Stores good := by
  unfold Cache.spreadCounter
  split
  · exact addToStat hlasting (patchPerformers hlasting _ _ h) _ _
  · exact dropStat hlasting (h.evictTypeFields _ _) _

theorem patchCounter (hlasting : Json.Lasting good) (h : c.Stores good) (target : CounterTarget)
    (id : String) (op : CounterOp) {value : Int} (hvalue : good (.int value)) (options : Options) :
    (c.patchCounter target id op value options).2.Stores good := by
  have hspread := spreadCounter hlasting h target ⟨target.typename, id⟩ op
  refine evictQueries (hspread.writeField hlasting.text _ _ ?_ ?_) _ _
  · simpa only [Json.normalized, Json.int] using hvalue
  · rw [Json.entities_of_isScalar rfl]
    intro e he
    cases he

theorem countPlay (hlasting : Json.Lasting good) (h : c.Stores good) (scene : ObjectRef) (now : String) :
    (c.countPlay scene now).Stores good := by
  refine countPlay_keeps (P := fun d => d.Stores good) h (fun n v _ => ?_) (fun d hd => ?_)
    (fun d stat _ hd => addToStat hlasting hd stat _) fun d hd => dropStat hlasting hd _
  · refine h.applyToField scene "play_count" fun w hw => ?_
    cases hw
    exact hlasting.integer (inInt64_wrapInt64 _)
  · refine hd.modifyField scene _ fun v w _ hw => ?_
    cases hw
    exact hlasting.text now

theorem step (hlasting : Json.Lasting good) (h : c.Stores good) {step : Step} (hstep : step.Writes good)
    (options : Options) (now : String) : (step.run options now c).Stores good := by
  cases step with
  | appendReference obj list => exact appendReference hlasting h obj list
  | addToStat stat delta => exact addToStat hlasting h stat delta
  | deleteObject obj lookup => exact deleteObject hlasting h obj lookup
  | evictObject obj => exact h.evictObject obj
  | evictField obj field => exact h.evictField obj field
  | evictTypeFields fields ignore => exact h.evictTypeFields fields ignore
  | evictQueries docs => exact h.evictQueries docs options
  | replaceField obj field v =>
    refine h.modifyField obj field fun _ w _ hw => ?_
    cases hw
    exact hstep
  | addToField obj field delta => exact addToField hlasting h obj field delta
  | countPlay scene => exact countPlay hlasting h scene now
  | patchCounter target id op value => exact patchCounter hlasting h target id op hstep options

end Stores

/-! ## Mutations -/

end Cache

def Mutation.storedEntities (m : Mutation) (result : Option Json) : List (ObjectRef × Json.Fields) :=
  match result.filter m.kind.accepts with
  | none => []
  | some v => (returnedValues v).flatMap fun
    | .object fields => (typedResult m.kind.subject fields).storedEntities
    | _ => []

theorem Mutation.mem_storedEntities {m : Mutation} {v : Json} (haccepts : m.kind.accepts v = true)
    {fields : Json.Fields} (hin : .object fields ∈ returnedValues v) {e : ObjectRef × Json.Fields}
    (he : e ∈ (typedResult m.kind.subject fields).storedEntities) : e ∈ m.storedEntities (some v) := by
  rw [storedEntities, Option.filter_some, if_pos haccepts]
  exact List.mem_flatMap.2 ⟨_, hin, he⟩

theorem Mutation.good_storedEntities {good : Json → Prop} (hgood : Json.Hereditary good)
    (hlasting : Json.Lasting good) (m : Mutation) {result : Option Json}
    (hresult : ∀ v ∈ result, good v) : ∀ e ∈ m.storedEntities result, good (.object e.2) := by
  intro e he
  rw [storedEntities] at he
  split at he
  · cases he
  · rename_i v hv
    have hin := hresult v (Option.filter_eq_some_iff.1 hv).1
    obtain ⟨w, hw, he⟩ := List.mem_flatMap.1 he
    -- A list returns its items, anything else itself.
    have hreturned : good w := by
      cases v with
      | array items => exact hgood.item hin w hw
      | _ =>
        obtain rfl := List.mem_singleton.1 hw
        exact hin
    cases w with
    | object fields =>
      -- The type that is filled in is a text.
      have htyped : good (typedResult m.kind.subject fields) := by
        unfold typedResult
        split
        · split
          · exact hlasting.member _ hreturned (hlasting.text _) rfl
          · exact hreturned
        · exact hreturned
      exact hgood.entities _ htyped e (Json.mem_entities_of_stored he)
    | _ => cases he

namespace Cache

variable {c : Cache} {m : Mutation} {result : Option Json}

theorem Stores.applyMutation {good : Json → Prop} (hlasting : Json.Lasting good) (h : c.Stores good)
    (htime : ∀ time ∈ m.resumeTime?, good (.number (.double time)))
    (hstored : ∀ e ∈ m.storedEntities result, ∀ member ∈ e.2, good member.2) (options : Options)
    (now : String) : (c.applyMutation options now m result).2.Stores good := by
  refine applyMutation_steps (P := fun c => c.Stores good) (fun v hv haccepts c fields hin hc => ?_)
    (fun v _ step hmem c hc => ?_) h
  · cases hv
    exact hc.writeObject hlasting.text fun e he => hstored e (m.mem_storedEntities haccepts hin he)
  · refine Stores.step hlasting hc (m.plan_writes v htime (fun i hi => hlasting.integer ?_) step hmem) _ _
    exact Json.inInt64_of_asInt64? hi

theorem Op.Patches.recordsOnly {good : Shape → Prop} (hleaf : good .leaf) {op : Op} (h : op.Patches) :
    op.RecordsOnly good := by
  cases op with
  | writeRoot field args data =>
    have hnull : data = .null := h
    rw [hnull]
    exact hleaf
  | restore s => exact h.elim
  | _ => trivial

theorem Records.applyMutation {good : Shape → Prop} (h : c.Records good) (hleaf : good .leaf)
    (options : Options) (now : String) (m : Mutation) (result : Option Json) :
    (c.applyMutation options now m result).2.Records good :=
  applyMutation_keeps (P := fun c => c.Records good)
    (fun _ _ _ c _ _ hc => hc.of_sameRoot (sameRoot_writeObject c _))
    (fun _ _ hop hc => hc.op (hop.recordsOnly hleaf)) options now h

theorem Op.Patches.storedEntities {op : Op} (h : op.Patches) (c : Cache) : op.storedEntities c = [] := by
  cases op with
  | writeRoot field args data =>
    have hnull : data = .null := h
    rw [hnull]
    rfl
  | writeField obj field v =>
    rw [Op.storedEntities, Json.entities_of_isScalar h.2, ite_self]
  | writeObject v => exact h.elim
  | _ => rfl

theorem Keyed.applyMutation (h : c.Keyed) (hsorted : ∀ v ∈ result, v.Sorted)
    (hids : ∀ e ∈ m.storedEntities result, e.1.id ≠ "") (options : Options) (now : String) :
    (c.applyMutation options now m result).2.Keyed := by
  refine applyMutation_keeps (fun v hv haccepts c fields hin hc => ?_) (fun op c hop hc => ?_) options now h
  · cases hv
    have hreturned := sorted_of_mem_returnedValues (hsorted v rfl) hin
    exact hc.writeObject (sorted_typedResult _ hreturned) fun e he =>
      hids e (m.mem_storedEntities haccepts hin he)
  · refine hc.op hop.keepsRows fun e he => ?_
    rw [hop.storedEntities] at he
    cases he

end Cache

end MediaCache
