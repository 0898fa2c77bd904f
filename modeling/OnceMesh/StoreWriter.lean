import OnceMesh.Python.Stateful
import OnceMesh.Receipt
import OnceMesh.Store

/-!
# Writing to a store

`StoreWriter` is the writing half of the store protocol, over the state of a store. A writer that
raises leaves the store as it is. `StoreCall` is one call of a writer, and `performAll` a sequence
of calls whose exceptions the caller handles.
-/

namespace OnceMesh

open Python

/-- The writers of a store in a state of type `σ`. -/
structure StoreWriter (σ : Type) where
  putBlob : Bytes → Stateful PyError σ Str
  putResult : Value → Stateful PyError σ Unit
  putValidation : Value → Stateful PyError σ Unit
  putInvalidation : Value → Stateful PyError σ Unit
  putReceipt : Value → Stateful PyError σ Unit

/-- A call of a writer. -/
inductive StoreCall where
  | putBlob (data : Bytes)
  | putResult (manifest : Value)
  | putValidation (record : Value)
  | putInvalidation (record : Value)
  | putReceipt (receipt : Value)

/-- The document of the call is a Python value: its dictionaries have distinct keys. -/
def StoreCall.WellFormed : StoreCall → Prop
  | .putBlob _ => True
  | .putResult value | .putValidation value | .putInvalidation value | .putReceipt value =>
    value.WellFormed

namespace StoreWriter

variable {σ : Type} (writer : StoreWriter σ)

/-- The store after a call, whether it returned or raised. -/
def perform (call : StoreCall) (store : σ) : σ :=
  match call with
  | .putBlob data => (writer.putBlob data store).2
  | .putResult manifest => (writer.putResult manifest store).2
  | .putValidation record => (writer.putValidation record store).2
  | .putInvalidation record => (writer.putInvalidation record store).2
  | .putReceipt receipt => (writer.putReceipt receipt store).2

/-- The store after some calls. -/
def performAll (calls : List StoreCall) (store : σ) : σ :=
  calls.foldl (fun store call => writer.perform call store) store

/-- What every call preserves, a sequence of calls preserves. -/
theorem performAll_induction (p : σ → Prop) {calls : List StoreCall} {store : σ}
    (hstore : p store) (hstep : ∀ call ∈ calls, ∀ s, p s → p (writer.perform call s)) :
    p (writer.performAll calls store) := by
  induction calls generalizing store with
  | nil => exact hstore
  | cons call calls ih =>
    rw [List.forall_mem_cons] at hstep
    exact ih (hstep.1 store hstore) hstep.2

end StoreWriter

/-- What the writers of a store do to it, given a valid document. -/
structure StorePuts (σ : Type) where
  putBlob : σ → Bytes → σ
  putResult : σ → Manifest → σ
  putValidation : σ → SourceValidation → σ
  putInvalidation : σ → Invalidation → σ
  /-- A receipt is put under the digest of its result. -/
  putReceipt : σ → Str → Value → σ

variable [Sha256]

/-- The writers of a store: each validates its document first. -/
def StorePuts.writer {σ : Type} (puts : StorePuts σ) : StoreWriter σ where
  putBlob data := do
    Stateful.modify fun store => puts.putBlob store data
    pure (digestBytes data)
  putResult value := do
    let manifest ← Manifest.ofValue value
    Stateful.modify fun store => puts.putResult store manifest
  putValidation value := do
    let record ← SourceValidation.ofValue value
    Stateful.modify fun store => puts.putValidation store record
  putInvalidation value := do
    let record ← Invalidation.ofValue value
    Stateful.modify fun store => puts.putInvalidation store record
  putReceipt value := do
    let fields ← validateReceipt value false
    Stateful.modify fun store => puts.putReceipt store fields.resultDigest value

namespace MemoryStore

/-- The writers of `MemoryStore`, on valid documents. -/
def puts : StorePuts MemoryStore where
  putBlob := putBlob
  putResult := putResult
  putValidation := putValidation
  putInvalidation := putInvalidation
  putReceipt := putReceipt

/-- The writers of `MemoryStore`. -/
def writer : StoreWriter MemoryStore := MemoryStore.puts.writer

end MemoryStore

end OnceMesh
