import MediaCache.Data.SortedMap
import MediaCache.Schema.Document
import MediaCache.Schema.Mutation
import MediaCache.Store.FieldName

/-!
# Transports

A transport is any state with two calls that answer and move it. The scripted server is the one for
rehearsals: queries are answered by store field name as often as they are asked, results of mutations
are used up in order, and every call is recorded.
-/

namespace MediaCache

inductive TransportError where
  | connectionFailed (reason : String)
  | unauthorized
  | graphql (reason : String)
deriving DecidableEq, Repr

def TransportError.message : TransportError → String
  | .connectionFailed reason => "Connection failed: " ++ reason
  | .unauthorized => "Unauthorized"
  | .graphql reason => "GraphQL error: " ++ reason

structure Transport (σ : Type) where
  query : σ → Document → Option Json → Except TransportError Json × σ
  /-- The result of a mutation, `null` when the server returned nothing. -/
  mutate : σ → Mutation → Except TransportError Json × σ

inductive Call where
  | query (field : String)
  | mutate (name : String)
deriving DecidableEq, Repr

structure Script where
  signedOut : Bool := false
  responses : SortedMap String Json := ∅
  results : List (Except String Json) := []
  calls : List Call := []

namespace Script

def respond (s : Script) (doc : Document) (args : Option Json) (data : Json) : Script :=
  { s with responses := s.responses.insert (storeFieldName doc.rootField args) data }

def pushResult (s : Script) (result : Json) : Script :=
  { s with results := s.results ++ [.ok result] }

def failNext (s : Script) (reason : String) : Script :=
  { s with results := s.results ++ [.error reason] }

def queryCount (s : Script) (doc : Document) : Nat :=
  (s.calls.filter fun call =>
    match call with
    | .query field => baseFieldName field == doc.rootField
    | .mutate _ => false).length

def query (s : Script) (doc : Document) (args : Option Json) : Except TransportError Json × Script :=
  let field := storeFieldName doc.rootField args
  let s := { s with calls := s.calls ++ [.query field] }
  if s.signedOut then (.error .unauthorized, s)
  else
    match s.responses.get? field with
    | some data => (.ok data, s)
    | none => (.error (.graphql ("no response scripted for " ++ field)), s)

def mutate (s : Script) (m : Mutation) : Except TransportError Json × Script :=
  let s := { s with calls := s.calls ++ [.mutate m.name] }
  if s.signedOut then (.error .unauthorized, s)
  else
    match s.results with
    | [] => (.ok .null, s)
    | .ok result :: rest => (.ok result, { s with results := rest })
    | .error reason :: rest => (.error (.connectionFailed reason), { s with results := rest })

def transport : Transport Script := ⟨query, mutate⟩

end Script

end MediaCache
