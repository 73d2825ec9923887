import Mathlib

/-!
# Accounts of a pool of jobs

Jobs enter a pool, change and leave it, and every step shows a reply. An account
says what a job holds and what a reply pays in and out. Where every step is in
balance, what the jobs hold and what was paid out is, at any time and whatever
the order of the steps, what was paid in. Nothing here depends on a particular
pool.
-/

namespace Gcad.PoolAccounts

variable {Item Job Reply α : Type*}

/-- What there is, if there is something. -/
def opt (o : Option α) : Multiset α := o.toList

@[simp] theorem opt_none : opt (none : Option α)=0 := rfl

@[simp] theorem opt_some (a : α) : opt (some a)={a} := rfl

/-- One of two things of which at most one is there. -/
theorem opt_or {o other : Option α} (h : o=none ∨ other=none) :
    opt (o.or other)=opt o+opt other := by
  rcases h with rfl | rfl <;> simp

/-- What some items hold together. -/
def total (f : Item → Option α) (items : List Item) : Multiset α := items.filterMap f

@[simp] theorem total_nil (f : Item → Option α) : total f []=0 := rfl

@[simp] theorem total_cons (f : Item → Option α) (item : Item) (items : List Item) :
    total f (item::items)=opt (f item)+total f items := by
  cases h : f item <;> simp [total,h]

@[simp] theorem total_snoc (f : Item → Option α) (items : List Item) (item : Item) :
    total f (items++[item])=total f items+opt (f item) := by
  cases h : f item <;> simp [total,h,← Multiset.coe_add]

/-- Items that hold one of two things hold both kinds together. -/
theorem total_or {f g : Item → Option α} (h : ∀ item,f item=none ∨ g item=none)
    (items : List Item) :
    total (fun item => (f item).or (g item)) items=total f items+total g items := by
  induction items with
  | nil => rfl
  | cons item rest ih =>
    rw [total_cons,total_cons,total_cons,ih,opt_or (h item)]
    abel

/-- Items that hold less hold less together. -/
theorem total_le {f g : Item → Option α} (h : ∀ item a,f item=some a → g item=some a)
    (items : List Item) : total f items ≤ total g items := by
  induction items with
  | nil => exact le_refl _
  | cons item rest ih =>
    rw [total_cons,total_cons]
    refine add_le_add ?_ ih
    cases hitem : f item with
    | none => exact Multiset.zero_le _
    | some a => rw [h item a hitem]

/-- An item that is picked holds its part. -/
theorem total_eraseIdx (f : Item → Option α) {items : List Item} {i : ℕ} {item : Item}
    (h : items[i]?=some item) : total f items=opt (f item)+total f (items.eraseIdx i) := by
  obtain ⟨hi,rfl⟩ := List.getElem?_eq_some_iff.mp h
  rw [← total_cons]
  exact (Multiset.coe_eq_coe.mpr ((List.getElem_cons_eraseIdx_perm hi).filterMap f)).symm

/-- What is kept account of. -/
structure Account (Job Reply α : Type*) where
  /-- What a job holds. -/
  hold : Job → Option α
  /-- What a reply pays in. -/
  gain : Reply → Option α
  /-- What a reply pays out. -/
  loss : Reply → Option α

namespace Account

variable (account : Account Job Reply α) {jobs next : List Job} {job other : Job} {reply : Reply}

/-- A step is in balance. -/
def Balanced (jobs next : List Job) (reply : Reply) : Prop :=
  total account.hold next+opt (account.loss reply)=
    total account.hold jobs+opt (account.gain reply)

/-- A job that changes is in balance. -/
def Keeps (job other : Job) (reply : Reply) : Prop :=
  opt (account.hold other)+opt (account.loss reply)=
    opt (account.hold job)+opt (account.gain reply)

/-- All that was paid in is held or was paid out. -/
def Settled (jobs : List Job) (replies : List Reply) : Prop :=
  total account.hold jobs+total account.loss replies=total account.gain replies

variable {account}

/-- A step that leaves the pool alone. -/
theorem balanced_keep (h : account.loss reply=account.gain reply) :
    account.Balanced jobs jobs reply := by
  rw [Balanced,h]

/-- A job that enters brings what is paid in. -/
theorem balanced_enter
    (h : opt (account.hold job)+opt (account.loss reply)=opt (account.gain reply)) :
    account.Balanced jobs (job::jobs) reply := by
  rw [Balanced,total_cons,← h]
  abel

/-- A job that changes in balance. -/
theorem Keeps.balanced {i : ℕ} (h : account.Keeps job other reply) (hget : jobs[i]?=some job) :
    account.Balanced jobs (other::jobs.eraseIdx i) reply := by
  rw [Balanced,total_cons,total_eraseIdx account.hold hget]
  calc opt (account.hold other)+total account.hold (jobs.eraseIdx i)+opt (account.loss reply)
      =opt (account.hold other)+opt (account.loss reply)+total account.hold (jobs.eraseIdx i) := by
        abel
    _ =opt (account.hold job)+total account.hold (jobs.eraseIdx i)+opt (account.gain reply) := by
        rw [h]
        abel

/-- A job that leaves takes what is paid out. -/
theorem balanced_leave {i : ℕ} (hget : jobs[i]?=some job)
    (h : opt (account.loss reply)=opt (account.hold job)+opt (account.gain reply)) :
    account.Balanced jobs (jobs.eraseIdx i) reply := by
  rw [Balanced,total_eraseIdx account.hold hget,h]
  abel

/-- An empty pool without a history is settled. -/
theorem settled_nil : account.Settled [] [] := by simp [Settled]

/-- A balanced step keeps an account settled. -/
theorem Settled.step {replies : List Reply} (h : account.Settled jobs replies)
    (step : account.Balanced jobs next reply) : account.Settled next (replies++[reply]) := by
  rw [Settled,total_snoc,total_snoc,← h]
  calc total account.hold next+(total account.loss replies+opt (account.loss reply))
      =total account.hold next+opt (account.loss reply)+total account.loss replies := by abel
    _ =total account.hold jobs+total account.loss replies+opt (account.gain reply) := by
        rw [step]
        abel

end Account

end Gcad.PoolAccounts
