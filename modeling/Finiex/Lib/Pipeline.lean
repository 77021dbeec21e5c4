import Mathlib.Data.List.Basic

/-!
# Request pipelines

A worker takes jobs from a queue one at a time and puts its answers into a second queue.
Tagged alike, the answers, the job in hand and the waiting jobs are one queue, which the
worker never changes.
-/

namespace Finiex.Lib

/-- Jobs waiting for the worker, the job in its hand, and its answers. -/
structure Pipeline (J R : Type) where
  outbox : List J := []
  inHand : Option J := none
  inbox : List R := []

namespace Pipeline

variable {J R T : Type}

def push (p : Pipeline J R) (job : J) : Pipeline J R := { p with outbox := p.outbox ++ [job] }

def pushAll (p : Pipeline J R) (jobs : List J) : Pipeline J R :=
  { p with outbox := p.outbox ++ jobs }

/-- The worker takes the first job, when its hands are free. -/
def take (p : Pipeline J R) : Pipeline J R :=
  match p.inHand, p.outbox with
  | none, job :: jobs => { p with outbox := jobs, inHand := some job }
  | _, _ => p

def deliver (p : Pipeline J R) (respond : J → R) : Pipeline J R :=
  match p.inHand with
  | some job => { p with inHand := none, inbox := p.inbox ++ [respond job] }
  | none => p

@[simp] theorem inbox_take (p : Pipeline J R) : p.take.inbox = p.inbox := by
  unfold take
  split <;> rfl

section Items

variable (jobTag : J → T) (responseTag : R → T)

/-- What is in flight, oldest first. -/
def items (p : Pipeline J R) : List T :=
  p.inbox.map responseTag ++ (p.inHand.toList.map jobTag ++ p.outbox.map jobTag)

variable {jobTag responseTag}

@[simp] theorem items_push (p : Pipeline J R) (job : J) :
    (p.push job).items jobTag responseTag = p.items jobTag responseTag ++ [jobTag job] := by
  simp [items, push]

@[simp] theorem items_pushAll (p : Pipeline J R) (jobs : List J) :
    (p.pushAll jobs).items jobTag responseTag = p.items jobTag responseTag ++ jobs.map jobTag := by
  simp [items, pushAll]

@[simp] theorem items_take (p : Pipeline J R) :
    p.take.items jobTag responseTag = p.items jobTag responseTag := by
  unfold take
  split
  · next job jobs hhand hjobs => simp [items, hhand, hjobs]
  · rfl

theorem items_deliver (p : Pipeline J R) {respond : J → R}
    (h : ∀ job, responseTag (respond job) = jobTag job) :
    (p.deliver respond).items jobTag responseTag = p.items jobTag responseTag := by
  unfold deliver
  split
  · next job hhand => simp [items, hhand, h]
  · rfl

theorem items_of_inbox {p : Pipeline J R} {response : R} {rest : List R}
    (h : p.inbox = response :: rest) :
    p.items jobTag responseTag =
      responseTag response :: { p with inbox := rest }.items jobTag responseTag := by
  simp [items, h]

end Items

end Pipeline

end Finiex.Lib
