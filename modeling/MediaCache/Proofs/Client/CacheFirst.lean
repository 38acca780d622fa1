import Mathlib.Data.List.Permutation
import MediaCache.Client.Service
import MediaCache.Proofs.Store.Rereads

/-!
# A query is not asked twice

The answer to a query goes into the cache, so asking again at once needs no call, as long as the answer
can be read again. An answer whose list elements have different fields cannot: the shape of the list
selects all of them on each.
-/

namespace MediaCache

namespace Service

variable {σ : Type}

/-- With any transport in place of its own the service answers the same and calls nobody. -/
def AnswersAlone (s : Service σ) (doc : Document) (args : Option Json) : Prop :=
  ∃ data, ∀ t : Transport σ,
    query { s with transport := t } doc args = (.ok data, { s with transport := t })

theorem answersAlone_of_hit {s : Service σ} {doc : Document} {args : Option Json} {data : Json}
    (h : s.cache.readQuery doc args = .hit data) : s.AnswersAlone doc args := by
  refine ⟨data, fun t => ?_⟩
  unfold query
  rw [h]

/-- A service that misses the query depends on its transport, which may fail. -/
theorem not_answersAlone_of_missing {s : Service σ} {doc : Document} {args : Option Json}
    (h : s.cache.readQuery doc args = .missing) : ¬s.AnswersAlone doc args := by
  rintro ⟨data, halone⟩
  have hfail := halone ⟨fun server _ _ => (.error .unauthorized, server),
    fun server _ => (.error .unauthorized, server)⟩
  unfold query fetch at hfail
  simp only [h] at hfail
  cases congrArg Prod.fst hfail

theorem query_of_hit {s : Service σ} {doc : Document} {args : Option Json} {data : Json}
    (h : s.cache.readQuery doc args = .hit data) : s.query doc args = (.ok data, s) := by
  unfold query
  rw [h]

/-- An answer that had to be fetched is written to the cache. -/
theorem cache_query_of_missing {s : Service σ} {doc : Document} {args : Option Json} {data : Json}
    (h : s.cache.readQuery doc args = .missing) (hfirst : (s.query doc args).1 = .ok data) :
    (s.query doc args).2.cache = s.cache.writeQuery doc args data := by
  unfold query fetch at hfirst ⊢
  simp only [h] at hfirst ⊢
  split at hfirst
  · cases hfirst
    rfl
  · cases hfirst

/-- A query that could be answered is answered again without a call, if an answer that had to be fetched
holds no references and can be read again. An answer that cannot has to be fetched again by a service
that knew nothing before. -/
theorem query_answersAlone (s : Service σ) (doc : Document) (args : Option Json) {data : Json}
    (hfirst : (s.query doc args).1 = .ok data)
    (hanswer : s.cache.readQuery doc args = .missing → data.references = []) :
    ((s.cache.readQuery doc args = .missing → data.Rereadable) →
      (s.query doc args).2.AnswersAlone doc args) ∧
    ∀ policies, s.cache = .new policies →
      ((s.query doc args).2.AnswersAlone doc args ↔ data.Rereadable) := by
  have hagain : (s.cache.readQuery doc args = .missing → data.Rereadable) →
      (s.query doc args).2.AnswersAlone doc args := by
    intro hreadable
    cases hread : s.cache.readQuery doc args with
    | hit known =>
      rw [query_of_hit hread]
      exact answersAlone_of_hit hread
    -- The answer was fetched and written, and a read right after the write finds it.
    | missing =>
      obtain ⟨again, hagain⟩ := s.cache.readRoot_writeRoot_hits doc.rootField args (hanswer hread)
        (hreadable hread)
      have hcache := cache_query_of_missing hread hfirst
      exact answersAlone_of_hit ((congrArg (·.readQuery doc args) hcache).trans hagain)
  refine ⟨hagain, fun policies hnew => ⟨fun halone => ?_, fun hreadable => hagain fun _ => hreadable⟩⟩
  have hread : s.cache.readQuery doc args = .missing := by rw [hnew, Cache.readQuery_new]
  have hcache := cache_query_of_missing hread hfirst
  cases hsecond : (s.query doc args).2.cache.readQuery doc args with
  | missing => exact absurd halone (not_answersAlone_of_missing hsecond)
  -- Whatever an empty cache shows after the write was read from the answer itself.
  | hit known =>
    rw [hcache, hnew] at hsecond
    exact Cache.rereadable_of_hit policies doc.rootField args (hanswer hread) hsecond

def constantly (data : Json) : Service Unit where
  transport := ⟨fun _ _ _ => (.ok data, ()), fun _ _ => (.ok .null, ())⟩
  server := ()
  cache := .new .standard

def nestedTag (id name : String) (children : List Json) : Json :=
  .object [("__typename", .string "Tag"), ("children", .array children), ("id", .string id),
    ("name", .string name)]

/-- Tag 2 is named differently where it occurs again. -/
def renamedTag : Json :=
  .array [nestedTag "1" "a" [nestedTag "2" "b" []], nestedTag "2" "c" []]

/-- The scene occurs again in its own gallery, with one of its two paths. -/
def listedAgain : Json :=
  .object [("__typename", .string "Scene"), ("galleries", .array [.object
      [("__typename", .string "Gallery"), ("id", .string "2"), ("scenes", .array [.object
        [("__typename", .string "Scene"), ("id", .string "1"),
          ("paths", .object [("stream", .string "a")])]])]]),
    ("id", .string "1"), ("paths", .object [("preview", .string "b"), ("stream", .string "a")])]

theorem renamedTag_answersAlone :
    ((constantly renamedTag).query .findTags none).1 = .ok renamedTag ∧
      renamedTag.references = [] ∧ renamedTag.Rereadable ∧ ¬renamedTag.Consistent ∧
      ((constantly renamedTag).query .findTags none).2.AnswersAlone .findTags none ∧
    ((constantly listedAgain).query .findScene none).1 = .ok listedAgain ∧
      listedAgain.references = [] ∧ listedAgain.Rereadable ∧ ¬listedAgain.Consistent ∧
      ((constantly listedAgain).query .findScene none).2.AnswersAlone .findScene none := by
  have htag : renamedTag.Rereadable := by decide +kernel
  have hscene : listedAgain.Rereadable := by decide +kernel
  exact ⟨rfl, rfl, htag, by decide +kernel,
    (query_answersAlone (constantly renamedTag) .findTags none rfl fun _ => rfl).1 fun _ => htag,
    rfl, rfl, hscene, by decide +kernel,
    (query_answersAlone (constantly listedAgain) .findScene none rfl fun _ => rfl).1 fun _ => hscene⟩

def unevenFiles : Json :=
  .object [("__typename", .string "Scene"), ("files", .array [
    .object [("__typename", .string "VideoFile"), ("duration", .int 9), ("id", .string "1")],
    .object [("__typename", .string "GalleryFile"), ("id", .string "2")]]),
    ("id", .string "3")]

def splitPaths : Json :=
  .object [("__typename", .string "Scene"), ("id", .string "1"),
    ("paths", .object [("stream", .string "a")]),
    ("similar", .array [.object [("__typename", .string "Scene"), ("id", .string "1"),
      ("paths", .object [("preview", .string "b")])]])]

/-- The servers give no references, and still both queries have to be asked again at once. -/
theorem second_query_calls :
    unevenFiles.Sorted ∧ splitPaths.Sorted ∧
      (∀ doc args data, (((constantly unevenFiles).transport.query () doc args).1 = .ok data ∨
        ((constantly splitPaths).transport.query () doc args).1 = .ok data) →
          data.references = []) ∧
      ((constantly unevenFiles).query .findScene none).1 = .ok unevenFiles ∧
      ¬((constantly unevenFiles).query .findScene none).2.AnswersAlone .findScene none ∧
      ((constantly splitPaths).query .findScene none).1 = .ok splitPaths ∧
      ¬((constantly splitPaths).query .findScene none).2.AnswersAlone .findScene none := by
  have hfiles : ((Cache.new .standard).writeQuery .findScene none unevenFiles).readQuery .findScene
      none = .missing := by cbv
  have hpaths : ((Cache.new .standard).writeQuery .findScene none splitPaths).readQuery .findScene
      none = .missing := by cbv
  refine ⟨by decide +kernel, by decide +kernel, ?_, rfl, ?_, rfl, ?_⟩
  · rintro doc args data (hdata | hdata)
    · cases hdata
      rfl
    · cases hdata
      rfl
  · exact not_answersAlone_of_missing hfiles
  · exact not_answersAlone_of_missing hpaths

end Service

end MediaCache
