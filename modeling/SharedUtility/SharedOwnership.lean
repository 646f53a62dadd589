import Mathlib.Data.List.Basic

/-!
# SharedOwnership — who holds the references to an object

* `Life` — an object with the threads that hold a reference to it, one that its last thread takes down, or none,
* `Life.next` — one event, where it is allowed: only a thread that holds a reference uses, copies, gives away or
  drops one, and there are fewer than `limit` of them.
-/

namespace SharedUtility.SharedOwnership

variable {T : Type}

inductive Life (T : Type)
  | shared (owners : List T)
  /-- `left` steps of the teardown are to come. -/
  | ending (last : T) (left : Nat)
  | gone
  deriving DecidableEq

inductive Event (T : Type)
  | clone (t : T)
  | use (t : T)
  | give (t t' : T)
  | drop (t : T)
  | finish (t : T)

def Event.thread : Event T → T
  | .clone t => t
  | .use t => t
  | .give t _ => t
  | .drop t => t
  | .finish t => t

namespace Life

/-- The thread is in the teardown. -/
def endedBy (t : T) : Life T → Prop
  | .ending last _ => last = t
  | _ => False

/-- What an object that is not forgotten satisfies. -/
def proper (limit steps : Nat) : Life T → Prop
  | .shared owners => owners ≠ [] ∧ owners.length < limit
  | .ending _ left => 0 < left ∧ left ≤ steps
  | .gone => True

variable [DecidableEq T] {limit steps : Nat} {life life' : Life T} {event : Event T}

/-- `none` where the event is not allowed; a teardown has `steps` steps. -/
def next (limit steps : Nat) : Life T → Event T → Option (Life T)
  | .shared owners, .clone t =>
    if t ∈ owners ∧ owners.length + 1 < limit then some (.shared (t :: owners)) else none
  | .shared owners, .use t => if t ∈ owners then some (.shared owners) else none
  | .shared owners, .give t t' => if t ∈ owners then some (.shared (t' :: owners.erase t)) else none
  | .shared owners, .drop t =>
    if t ∈ owners then some (if owners.length = 1 then .ending t steps else .shared (owners.erase t)) else none
  | .ending last left, .finish t =>
    if last = t then some (if left ≤ 1 then .gone else .ending last (left - 1)) else none
  | _, _ => none

theorem length_erase {owners : List T} {t : T} (ht : t ∈ owners) : (owners.erase t).length + 1 = owners.length := by
  rw [List.length_erase_of_mem ht]
  exact Nat.sub_add_cancel (List.length_pos_of_mem ht)

end Life

end SharedUtility.SharedOwnership
