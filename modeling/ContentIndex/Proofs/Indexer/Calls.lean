import ContentIndex.Indexer.Basic
import ContentIndex.Proofs.Program.Execution

/-
  Which calls an operation makes. `Gives P Q` says of an operation that, whatever the answers,
  its calls satisfy `P` and what it yields satisfies `Q`; an operation that ends in an error
  yields nothing. There is one rule for each way to build an operation, so that the calls of an
  operation are read off its parts.
-/

namespace ContentIndex

/-! ## Programs of store calls -/

/-- Store calls that an operation passes on. -/
def StoreLift (P : StoreCall → Prop) : IndexerCall → Prop
  | .store c => P c
  | _ => False

theorem always_run_store {α : Type} {P : StoreCall → Prop} {Q : α → Prop} {a : Program store α}
    (h : a.Always P Q) :
    (Program.run (I := store) (m := Program surroundings)
      (fun c => .perform (I := surroundings) (.store c)) a).Always (StoreLift P) Q := by
  induction a with
  | done a => exact h
  | call c next ih => exact ⟨h.1, fun r => ih r (h.2 r)⟩

namespace Action

variable {α β : Type} {P P' : IndexerCall → Prop} {Q : α → Prop} {R : β → Prop}

/-- All calls satisfy `P`, and a value that the operation yields satisfies `Q`. -/
def Gives (P : IndexerCall → Prop) (Q : α → Prop) (a : Action α) : Prop :=
  a.run.Always P fun r => ∀ v, r = .ok v → Q v

/-- All calls satisfy `P`. -/
def Calls (P : IndexerCall → Prop) (a : Action α) : Prop :=
  a.Gives P fun _ => True

theorem Gives.mono {Q' : α → Prop} {a : Action α} (h : a.Gives P Q) (hP : ∀ c, P c → P' c)
    (hQ : ∀ v, Q v → Q' v) : a.Gives P' Q' :=
  Program.Always.mono h hP fun _ hr v hv => hQ v (hr v hv)

theorem Gives.calls {a : Action α} (h : a.Gives P Q) : a.Calls P :=
  h.mono (fun _ => id) fun _ _ => trivial

/-! ## Rules -/

theorem gives_pure {v : α} (h : Q v) : (pure v : Action α).Gives P Q := by
  intro w hw
  cases hw
  exact h

theorem calls_pure (v : α) : (pure v : Action α).Calls P :=
  gives_pure trivial

theorem gives_throw (e : IndexError) : (throw e : Action α).Gives P Q := by
  intro v hv
  cases hv

theorem Gives.bind {a : Action α} {f : α → Action β} (h : a.Gives P Q)
    (hf : ∀ v, Q v → (f v).Gives P R) : (a >>= f).Gives P R :=
  Program.Always.bind_except h (fun v hv => hf v (hv v rfl)) fun _ _ _ hw => by cases hw

theorem Calls.bind {a : Action α} {f : α → Action β} (h : a.Calls P)
    (hf : ∀ v, (f v).Gives P R) : (a >>= f).Gives P R :=
  Gives.bind h fun v _ => hf v

theorem calls_ask {c : IndexerCall} (h : P c) : (ask c).Calls P :=
  ⟨h, fun _ _ _ => trivial⟩

theorem calls_ofExcept {ε : Type} (wrap : ε → IndexError) (r : Except ε α) :
    (ofExcept wrap r).Calls P :=
  fun _ _ => trivial

/-- An operation goes on after a condition only if it holds. -/
theorem gives_require (holds : Bool) (e : IndexError) :
    (require holds e).Gives P fun _ => holds = true := by
  cases holds with
  | true => exact gives_pure rfl
  | false => exact gives_throw e

theorem calls_require (holds : Bool) (e : IndexError) : (require holds e).Calls P :=
  (gives_require holds e).calls

/-- What an operation ends with is a value, be it of an error. -/
theorem Calls.result {a : Action α} (h : a.Calls P) : a.result.Calls P :=
  Program.Always.bind h fun _ _ _ _ => trivial

theorem calls_stored {S : StoreCall → Prop} {a : StoreAction α} (h : a.run.Always S fun _ => True)
    (hS : ∀ c, S c → P (.store c)) : (stored a).Calls P := by
  have lifted : Calls P (ExceptT.lift (Program.run (I := store)
      (fun c => .perform (I := surroundings) (.store c)) a.run)) := by
    refine Program.Always.bind ((always_run_store h).mono ?_ fun _ _ => trivial) ?_
    · intro c hc
      cases c with
      | store c => exact hS c hc
      | _ => exact hc.elim
    · exact fun _ _ _ _ => trivial
  exact lifted.bind fun r => calls_ofExcept _ r

theorem calls_prepare {id : UInt64} (h : P (.content (.prepare id))) : (prepare id).Calls P :=
  calls_ask h

theorem calls_listIds {p : Page} (h : P (.content (.listIds p))) : (listIds p).Calls P :=
  (calls_ask h).bind fun r => calls_ofExcept _ r

theorem calls_count {scope : Option String} (h : P (.content (.count scope))) :
    (count scope).Calls P :=
  (calls_ask h).bind fun r => calls_ofExcept _ r

theorem calls_send {r : Engine.Request} (h : P (.engine r)) : (send r).Calls P :=
  calls_ask h

theorem calls_pause {nanos : Nat} (h : P (.wait nanos)) : (pause nanos).Calls P := by
  cases nanos with
  | zero => exact calls_pure ()
  | succ n => exact calls_ask h

end Action

/-! ## The ledger -/

/-- A call on one of two keys. -/
def StoreCall.On (keys : List String) : StoreCall → Prop
  | .get k | .set k _ | .delete k => k ∈ keys

namespace StoreAction

variable {α β : Type} {P : StoreCall → Prop}

theorem always_bind {a : StoreAction α} {f : α → StoreAction β}
    (h : a.run.Always P fun _ => True) (hf : ∀ v, (f v).run.Always P fun _ => True) :
    (a >>= f).run.Always P fun _ => True :=
  Program.Always.bind_except h (fun v _ => hf v) fun _ _ => trivial

theorem always_load {read : Json.Reader α} {key : String} (h : P (.get key)) :
    (load read key).run.Always P fun _ => True := by
  refine always_bind ⟨h, fun _ => trivial⟩ fun v => ?_
  cases v with
  | none => trivial
  | some text => exact always_bind (a := ExceptT.mk (pure (decode read text))) trivial fun _ => trivial

theorem always_set {key text : String} (h : P (.set key text)) :
    (set key text).run.Always P fun _ => True :=
  ⟨h, fun _ => trivial⟩

theorem always_delete {key : String} (h : P (.delete key)) :
    (delete key).run.Always P fun _ => True :=
  ⟨h, fun _ => trivial⟩

end StoreAction

namespace Ledger

/-- The keys of the ledger. -/
def ledgerKeys (keys : RecordKeys) : List String := [keys.failedItems, keys.failedOffsets]

open StoreAction

variable {keys : RecordKeys}

theorem always_loadLedger :
    (load keys).run.Always (StoreCall.On (ledgerKeys keys)) fun _ => True :=
  always_bind (always_load (by simp [StoreCall.On, ledgerKeys])) fun _ =>
    always_bind (always_load (by simp [StoreCall.On, ledgerKeys])) fun _ => trivial

theorem always_clear :
    (clear keys).run.Always (StoreCall.On (ledgerKeys keys)) fun _ => True :=
  always_bind (always_delete (by simp [StoreCall.On, ledgerKeys])) fun _ =>
    always_delete (by simp [StoreCall.On, ledgerKeys])

theorem always_record (items : List UInt64) (offset : Option UInt64) :
    (record keys items offset).run.Always (StoreCall.On (ledgerKeys keys)) fun _ => True :=
  always_bind always_loadLedger fun _ =>
    always_bind (always_set (by simp [StoreCall.On, ledgerKeys])) fun _ =>
      always_set (by simp [StoreCall.On, ledgerKeys])

end Ledger
end ContentIndex
