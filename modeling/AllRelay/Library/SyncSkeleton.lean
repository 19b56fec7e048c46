import AllRelay.Library.LabelledSystem
import Mathlib.Data.List.Basic
import Mathlib.Logic.Function.Basic

/-!
# Synchronization skeletons

The **skeleton** of a routine is what is left of it when only its waiting is of interest: the locks
it acquires and releases, the channels it sends to and receives from, the threads it joins, and the
branches and loops around them. Every other step is `work`, which takes its time and returns.

A lock or a channel has a **kind**, and there may be any number of locks of a kind, told apart by a
number; a routine holds at most one of each kind. Which branch is taken, how often a loop runs and
which lock of a kind is acquired is left to the environment, and a thread may start at any time with
any routine. The reachable configurations are therefore more than those of the program.

A set of threads is **deadlocked** if each of them waits for a lock, a slot of a channel or the end
of a thread that only threads of the set can provide. `SyncProgram.not_deadlocked` excludes it for
programs that pass a check of their text: with a rank for each kind, a routine waits only for kinds
of a rank lower than all that it holds. What a thread provides as long as it runs (the slots of a
channel that it empties, its own end) counts as held.
-/

/-- How a lock is held: by one thread, or shared by readers. -/
inductive LockMode where
  | read
  | write
deriving DecidableEq, Repr

/-- The skeleton of a routine, where `κ` are the kinds of locks and channels. -/
inductive Skeleton (κ : Type*) where
  /-- A step that returns by itself. -/
  | work
  | lock (mode : LockMode) (k : κ)
  | unlock (k : κ)
  | send (k : κ)
  /-- Waits until a thread that provides `k` has ended. -/
  | join (k : κ)
  /-- Receives from `k` and does `body`, or from `k'` and does `body'`. -/
  | select (k : κ) (body : Skeleton κ) (k' : κ) (body' : Skeleton κ)
  | seq (first second : Skeleton κ)
  | choice (left right : Skeleton κ)
  /-- Any number of rounds. -/
  | loop (body : Skeleton κ)
  /-- Rounds without end. -/
  | forever (body : Skeleton κ)
deriving DecidableEq, Repr

namespace Skeleton

variable {κ : Type*}

/-- One after the other. -/
def block : List (Skeleton κ) → Skeleton κ
  | [] => .work
  | [s] => s
  | s :: rest => .seq s (block rest)

/-- A branch that may be skipped. -/
def opt (body : Skeleton κ) : Skeleton κ :=
  .choice body .work

/-- A section under a lock. -/
def locked (mode : LockMode) (k : κ) (body : Skeleton κ) : Skeleton κ :=
  block [.lock mode k, body, .unlock k]

/-- What is left of a skeleton when its first step is taken; `left` decides a branch. -/
def unfold (left : Bool) : Skeleton κ → List (Skeleton κ)
  | .work | .lock .. | .unlock _ | .send _ | .join _ => []
  | .select _ body _ body' => [if left then body else body']
  | .seq first second => [first, second]
  | .choice body body' => [if left then body else body']
  | .loop body => if left then [body, .loop body] else []
  | .forever body => [body, .forever body]

/-- What a skeleton waits for before its first step. -/
def waitsFor : Skeleton κ → Option κ
  | .lock _ k | .send k | .join k => some k
  | _ => none

end Skeleton

/-- A lock that a thread holds. -/
structure HeldLock (κ : Type*) where
  mode : LockMode
  kind : κ
  id : ℕ
deriving DecidableEq, Repr

namespace SyncProgram

/-- A thread: the routine it runs, what is left of it, and the locks it holds. -/
structure Thread (κ ε : Type*) where
  entry : ε
  stack : List (Skeleton κ)
  held : List (HeldLock κ)
deriving DecidableEq, Repr

/-- A configuration: the threads so far, and how many messages are in each channel. -/
structure Config (κ ε : Type*) where
  threads : List (Thread κ ε)
  buffered : κ → ℕ

/-- What happens next. -/
inductive Label (ε : Type*) where
  /-- A thread starts. -/
  | start (entry : ε)
  /-- Thread `t` takes a step; `id` is the lock or the thread that the step is about. -/
  | go (t : ℕ) (left : Bool) (id : ℕ)
  /-- Thread `t` sends on a channel without a buffer, and `u` receives. -/
  | meet (t u : ℕ) (left : Bool)
deriving DecidableEq, Repr

end SyncProgram

/-- A program: `ε` are its routines. -/
structure SyncProgram (κ ε : Type*) where
  body : ε → Skeleton κ
  /-- What a thread provides as long as it runs. -/
  provides : ε → List κ
  /-- The capacity of a channel. -/
  capacity : κ → ℕ
  /-- The routine of the first thread. -/
  server : ε

namespace SyncProgram

variable {κ ε : Type*} (P : SyncProgram κ ε)

/-! ### Deadlock -/

/-- What a thread may wait for. -/
inductive Resource (κ : Type*) where
  /-- Lock `id` of a kind. -/
  | lock (k : κ) (id : ℕ)
  /-- A slot of a channel. -/
  | slot (k : κ)
  /-- The end of thread `w`. -/
  | completion (k : κ) (w : ℕ)
deriving DecidableEq, Repr

/-- The kind of a resource. -/
def Resource.kind : Resource κ → κ
  | .lock k _ | .slot k | .completion k _ => k

/-- A thread is about to take a step for which it needs a resource. -/
def Requests (c : Config κ ε) (t : ℕ) (s : Skeleton κ) : Prop :=
  ∃ th rest, c.threads[t]? = some th ∧ th.stack = s :: rest

/-- Thread `t` waits for a resource. A reader may have to wait for readers, when a writer has asked
for the lock between them. -/
def Waits (c : Config κ ε) (t : ℕ) : Resource κ → Prop
  | .lock k id => (∃ mode, Requests c t (.lock mode k)) ∧
    ∃ th ∈ c.threads, ∃ x ∈ th.held, x.kind = k ∧ x.id = id
  | .slot k => Requests c t (.send k) ∧ P.capacity k ≤ c.buffered k
  | .completion k w => Requests c t (.join k) ∧
    ∃ th, c.threads[w]? = some th ∧ k ∈ P.provides th.entry ∧ th.stack ≠ []

/-- Thread `u` can release a resource. -/
def Releases (c : Config κ ε) (u : ℕ) : Resource κ → Prop
  | .lock k id => ∃ th, c.threads[u]? = some th ∧ ∃ x ∈ th.held, x.kind = k ∧ x.id = id
  | .slot k => ∃ th, c.threads[u]? = some th ∧ k ∈ P.provides th.entry ∧ th.stack ≠ []
  | .completion _ w => u = w

/-- Each thread of the set waits for something that only threads of the set can release. -/
def Deadlocked (c : Config κ ε) (S : Set ℕ) : Prop :=
  S.Nonempty ∧ ∀ t ∈ S, ∃ r, P.Waits c t r ∧ ∀ u, P.Releases c u r → u ∈ S

variable {P}

theorem Waits.requests {t : ℕ} {r : Resource κ} {c : Config κ ε} (h : P.Waits c t r) :
    ∃ s : Skeleton κ, s.waitsFor = some r.kind ∧ Requests c t s := by
  cases r with
  | lock k id =>
    obtain ⟨⟨mode, hrequests⟩, -⟩ := h
    exact ⟨.lock mode k, rfl, hrequests⟩
  | slot k => exact ⟨.send k, rfl, h.1⟩
  | completion k w => exact ⟨.join k, rfl, h.1⟩

variable [DecidableEq κ] (P)

/-! ### Steps -/

/-- A thread that starts. -/
def begin (e : ε) : Thread κ ε :=
  ⟨e, [P.body e], []⟩

/-- At first only the server runs. -/
def initial : Config κ ε :=
  ⟨[P.begin P.server], fun _ ↦ 0⟩

/-- The locks that are held after a step. -/
def heldAfter (id : ℕ) (held : List (HeldLock κ)) : Skeleton κ → List (HeldLock κ)
  | .lock mode k => ⟨mode, k, id⟩ :: held
  | .unlock k => held.eraseP fun x ↦ x.kind = k
  | _ => held

/-- The messages after a step. -/
def bufferedAfter (left : Bool) (buffered : κ → ℕ) : Skeleton κ → κ → ℕ
  | .send k => Function.update buffered k (buffered k + 1)
  | .select k _ k' _ =>
    let k := if left then k else k'
    Function.update buffered k (buffered k - 1)
  | _ => buffered

/-- A thread after a step. -/
def Thread.advance (th : Thread κ ε) (left : Bool) (id : ℕ) (s : Skeleton κ)
    (rest : List (Skeleton κ)) : Thread κ ε :=
  ⟨th.entry, s.unfold left ++ rest, heldAfter id th.held s⟩

/-- A step may be taken: the lock is free, or shared by readers; the channel has room or a message;
the thread has ended. -/
def Enabled (c : Config κ ε) (left : Bool) (id : ℕ) : Skeleton κ → Prop
  | .lock mode k => ∀ th ∈ c.threads, ∀ x ∈ th.held, x.kind = k → x.id = id →
    mode = .read ∧ x.mode = .read
  | .send k => c.buffered k < P.capacity k
  | .join k => ∃ th ∈ c.threads[id]?, k ∈ P.provides th.entry ∧ th.stack = []
  | .select k _ k' _ => 0 < c.buffered (if left then k else k')
  | _ => True

instance (c : Config κ ε) (left : Bool) (id : ℕ) (s : Skeleton κ) :
    Decidable (P.Enabled c left id s) :=
  match s with
  | .lock mode k => inferInstanceAs (Decidable (∀ th ∈ c.threads, ∀ x ∈ th.held, x.kind = k →
      x.id = id → mode = .read ∧ x.mode = .read))
  | .send k => inferInstanceAs (Decidable (c.buffered k < P.capacity k))
  | .join k => inferInstanceAs (Decidable (∃ th ∈ c.threads[id]?,
      k ∈ P.provides th.entry ∧ th.stack = []))
  | .select k _ k' _ => inferInstanceAs (Decidable (0 < c.buffered (if left then k else k')))
  | .work | .unlock _ | .seq .. | .choice .. | .loop _ | .forever _ =>
    inferInstanceAs (Decidable True)

/-- The step of a label. -/
def step (c : Config κ ε) : Label ε → Option (Config κ ε)
  | .start e => some { c with threads := c.threads ++ [P.begin e] }
  | .go t left id =>
    c.threads[t]?.bind fun th ↦
      match th.stack with
      | [] => none
      | s :: rest =>
        if P.Enabled c left id s then
          some ⟨c.threads.set t (th.advance left id s rest), bufferedAfter left c.buffered s⟩
        else none
  | .meet t u left =>
    c.threads[t]?.bind fun sender ↦ c.threads[u]?.bind fun receiver ↦
      match sender.stack, receiver.stack with
      | .send k :: rest, .select k₁ body₁ k₂ body₂ :: rest' =>
        if P.capacity k = 0 ∧ k = (if left then k₁ else k₂) then
          some { c with
            threads := (c.threads.set t (sender.advance left 0 (.send k) rest)).set u
              (receiver.advance left 0 (.select k₁ body₁ k₂ body₂) rest') }
        else none
      | _, _ => none

end SyncProgram

/-! ### The check -/

namespace Skeleton

variable {κ : Type*} [DecidableEq κ] (rank : κ → ℕ) (served base : List κ)

/-- A kind may be waited for by a thread that provides `base` and holds `held`. -/
def mayWait (held : List κ) (k : κ) : Bool :=
  (base ++ held).all fun x ↦ rank k < rank x

/-- The kinds that are held after a skeleton, from those that are held before it, if it waits in the
order of the ranks. -/
def check : Skeleton κ → List κ → Option (List κ)
  | .work, held => some held
  | .lock _ k, held => if mayWait rank base held k then some (k :: held) else none
  | .unlock k, held => if k ∈ held then some (held.erase k) else none
  | .send k, held => if mayWait rank base held k ∧ k ∈ served then some held else none
  | .join k, held => if mayWait rank base held k then some held else none
  | .select _ body _ body', held | .choice body body', held =>
    if body.check held = body'.check held then body.check held else none
  | .seq first second, held => (first.check held).bind second.check
  | .loop body, held | .forever body, held =>
    if body.check held = some held then some held else none

/-- The same check for what is left of a thread. -/
def checks : List (Skeleton κ) → List κ → Option (List κ)
  | [], held => some held
  | s :: rest, held => (s.check rank served base held).bind (checks rest)

/-- The kinds that are held after the first step. -/
def kindsAfter (held : List κ) : Skeleton κ → List κ
  | .lock _ k => k :: held
  | .unlock k => held.erase k
  | _ => held

variable {rank served base}

theorem checks_append (l l' : List (Skeleton κ)) (held : List κ) :
    checks rank served base (l ++ l') held =
      (checks rank served base l held).bind (checks rank served base l') := by
  induction l generalizing held with
  | nil => rfl
  | cons s rest ih =>
    rw [List.cons_append, checks, checks, Option.bind_assoc]
    exact congrArg _ (funext ih)

/-- What passes the check waits in the order of the ranks. -/
theorem rank_lt_of_check {s : Skeleton κ} {held held' : List κ} {k x : κ}
    (hs : s.waitsFor = some k) (h : s.check rank served base held = some held')
    (hx : x ∈ base ++ held) : rank k < rank x := by
  have hmay : mayWait rank base held k = true := by
    cases s with
    | lock mode k' => exact Option.some.inj hs ▸ (Option.ite_none_right_eq_some.1 h).1
    | send k' => exact Option.some.inj hs ▸ (Option.ite_none_right_eq_some.1 h).1.1
    | join k' => exact Option.some.inj hs ▸ (Option.ite_none_right_eq_some.1 h).1
    | work | unlock | select | seq | choice | loop | forever =>
      exact absurd hs (Option.some_ne_none k).symm
  exact of_decide_eq_true (List.all_eq_true.1 hmay x hx)

theorem checks_singleton (s : Skeleton κ) (held : List κ) :
    checks rank served base [s] held = s.check rank served base held :=
  Option.bind_fun_some _

/-- Both branches of a choice pass the check. -/
theorem check_branch {body body' : Skeleton κ} {held held' : List κ} (left : Bool)
    (h : (Skeleton.choice body body').check rank served base held = some held') :
    (if left then body else body').check rank served base held = some held' := by
  obtain ⟨hsame, hbody⟩ := Option.ite_none_right_eq_some.1 h
  split
  · exact hbody
  · exact hsame.symm.trans hbody

/-- **A step of a skeleton**: what passes the check passes it after a step. -/
theorem check_unfold {s : Skeleton κ} {held held' : List κ} (left : Bool)
    (h : s.check rank served base held = some held') :
    checks rank served base (s.unfold left) (kindsAfter held s) = some held' := by
  cases s with
  | work => exact h
  | lock mode k => exact (Option.ite_none_right_eq_some.1 h).2
  | unlock k => exact (Option.ite_none_right_eq_some.1 h).2
  | send k => exact (Option.ite_none_right_eq_some.1 h).2
  | join k => exact (Option.ite_none_right_eq_some.1 h).2
  | select k body k' body' =>
    rw [unfold, checks_singleton]
    exact check_branch left h
  | seq first second => exact (congrArg _ (funext (checks_singleton second))).trans h
  | choice body body' =>
    rw [unfold, checks_singleton]
    exact check_branch left h
  | loop body =>
    obtain ⟨hbody, hheld⟩ := Option.ite_none_right_eq_some.1 h
    rw [unfold]
    split
    · show (body.check rank served base held).bind _ = _
      rw [hbody, Option.bind_some, checks_singleton]
      exact h
    · exact hheld
  | forever body =>
    obtain ⟨hbody, -⟩ := Option.ite_none_right_eq_some.1 h
    show (body.check rank served base held).bind _ = _
    rw [hbody, Option.bind_some, checks_singleton]
    exact h

end Skeleton

namespace SyncProgram

variable {κ ε : Type*} [DecidableEq κ]

/-- The kinds of the locks that are held after a step. -/
theorem heldAfter_kinds (id : ℕ) (held : List (HeldLock κ)) (s : Skeleton κ) :
    (heldAfter id held s).map HeldLock.kind = Skeleton.kindsAfter (held.map HeldLock.kind) s := by
  cases s with
  | unlock k =>
    rw [heldAfter, Skeleton.kindsAfter]
    induction held with
    | nil => rfl
    | cons x rest ih =>
      by_cases hx : x.kind = k
      · rw [List.eraseP_cons_of_pos (by simpa using hx), List.map_cons, hx, List.erase_cons_head]
      · rw [List.eraseP_cons_of_neg (by simpa using hx), List.map_cons, List.map_cons,
          List.erase_cons_tail (by simpa using hx), ih]
  | lock | work | send | join | select | seq | choice | loop | forever => rfl

/-! ### The invariant -/

/-- What is left of a thread passes the check, and no lock is held after it. -/
def Thread.Ordered (P : SyncProgram κ ε) (rank : κ → ℕ) (th : Thread κ ε) : Prop :=
  Skeleton.checks rank (P.provides P.server) (P.provides th.entry) th.stack
    (th.held.map HeldLock.kind) = some []

/-- A thread runs the server routine, and it is in a loop without end. -/
def Thread.Serves (P : SyncProgram κ ε) (th : Thread κ ε) : Prop :=
  th.entry = P.server ∧ ∃ l body, th.stack = l ++ [.forever body]

/-- The routines pass the check and give back every lock, and the server runs forever. -/
structure Ordered (P : SyncProgram κ ε) (rank : κ → ℕ) : Prop where
  check : ∀ e, (P.body e).check rank (P.provides P.server) (P.provides e) [] = some []
  server : ∃ body, P.body P.server = .forever body

/-- The threads that a step leaves behind. -/
inductive Moves (P : SyncProgram κ ε) (ths : List (Thread κ ε)) : List (Thread κ ε) → Prop where
  | start (e : ε) : Moves P ths (ths ++ [P.begin e])
  | advance {t : ℕ} {th : Thread κ ε} {s : Skeleton κ} {rest : List (Skeleton κ)}
    (left : Bool) (id : ℕ) (hth : ths[t]? = some th) (hstack : th.stack = s :: rest) :
    Moves P ths (ths.set t (th.advance left id s rest))

variable {P : SyncProgram κ ε} {rank : κ → ℕ} {c c' : Config κ ε}

/-- **What a step can do**: one thread moves, or two of them meet. -/
theorem step_moves {l : Label ε} (h : P.step c l = some c') :
    P.Moves c.threads c'.threads ∨ ∃ ths, P.Moves c.threads ths ∧ P.Moves ths c'.threads := by
  cases l with
  | start e => exact .inl (Option.some.inj h ▸ .start e)
  | go t left id =>
    obtain ⟨th, hth, h⟩ := Option.bind_eq_some_iff.1 h
    split at h
    · exact absurd h (Option.some_ne_none _).symm
    · rename_i s rest hstack
      obtain ⟨-, h⟩ := Option.ite_none_right_eq_some.1 h
      exact .inl (Option.some.inj h ▸ .advance left id hth hstack)
  | meet t u left =>
    obtain ⟨sender, hsender, h⟩ := Option.bind_eq_some_iff.1 h
    obtain ⟨receiver, hreceiver, h⟩ := Option.bind_eq_some_iff.1 h
    split at h
    · rename_i k rest k₁ body₁ k₂ body₂ rest' hstack hstack'
      obtain ⟨-, h⟩ := Option.ite_none_right_eq_some.1 h
      have hne : t ≠ u := by
        rintro rfl
        rw [Option.some.inj (hsender.symm.trans hreceiver), hstack'] at hstack
        exact Skeleton.noConfusion rfl (heq_of_eq (List.cons.inj hstack).1)
      have hreceiver' : (c.threads.set t (sender.advance left 0 (.send k) rest))[u]? =
          some receiver := (List.getElem?_set_ne hne).trans hreceiver
      exact .inr ⟨_, .advance left 0 hsender hstack,
        Option.some.inj h ▸ .advance left 0 hreceiver' hstack'⟩
    · exact absurd h (Option.some_ne_none _).symm

/-- A step of a thread keeps to the order. -/
theorem Thread.Ordered.advance {th : Thread κ ε} {s : Skeleton κ} {rest : List (Skeleton κ)}
    (hstack : th.stack = s :: rest) (h : th.Ordered P rank) (left : Bool) (id : ℕ) :
    (th.advance left id s rest).Ordered P rank := by
  rw [Thread.Ordered, hstack, Skeleton.checks] at h
  obtain ⟨held, hcheck, hrest⟩ := Option.bind_eq_some_iff.1 h
  rw [Thread.Ordered, Thread.advance, heldAfter_kinds, Skeleton.checks_append,
    Skeleton.check_unfold left hcheck]
  exact hrest

/-- A step of the server leaves it in its loop. -/
theorem Thread.Serves.advance {th : Thread κ ε} {s : Skeleton κ} {rest : List (Skeleton κ)}
    (hstack : th.stack = s :: rest) (h : th.Serves P) (left : Bool) (id : ℕ) :
    (th.advance left id s rest).Serves P := by
  obtain ⟨hentry, l, body, hl⟩ := h
  refine ⟨hentry, ?_⟩
  rw [hstack] at hl
  rcases l with _ | ⟨s', l⟩
  · obtain ⟨rfl, rfl⟩ := List.cons.inj hl
    exact ⟨[body], body, rfl⟩
  · obtain ⟨rfl, rfl⟩ := List.cons.inj hl
    exact ⟨s.unfold left ++ l, body, (List.append_assoc ..).symm⟩

/-- The invariant: every thread keeps to the order, and the first one serves. -/
structure Sound (P : SyncProgram κ ε) (rank : κ → ℕ) (ths : List (Thread κ ε)) : Prop where
  ordered : ∀ th ∈ ths, th.Ordered P rank
  serves : ∃ th, ths[0]? = some th ∧ th.Serves P

theorem Sound.begin (hP : P.Ordered rank) (e : ε) : (P.begin e).Ordered P rank := by
  rw [Thread.Ordered, SyncProgram.begin]
  exact (Option.bind_fun_some _).trans (hP.check e)

/-- **A move** keeps the invariant. -/
theorem Sound.moves (hP : P.Ordered rank) {ths ths' : List (Thread κ ε)} (h : P.Sound rank ths)
    (hmoves : P.Moves ths ths') : P.Sound rank ths' := by
  obtain ⟨server, hserver, hserves⟩ := h.serves
  cases hmoves with
  | start e =>
    have hlt : 0 < ths.length := (List.getElem?_eq_some_iff.1 hserver).1
    refine ⟨fun th hth ↦ ?_, server, (List.getElem?_append_left hlt).trans hserver, hserves⟩
    obtain hth | hth := List.mem_append.1 hth
    · exact h.ordered th hth
    · exact List.mem_singleton.1 hth ▸ Sound.begin hP e
  | @advance t th s rest left id hth hstack =>
    constructor
    · intro th' hth'
      obtain hth' | rfl := List.mem_or_eq_of_mem_set hth'
      · exact h.ordered th' hth'
      · exact (h.ordered th (List.mem_of_getElem? hth)).advance hstack left id
    · by_cases ht : t = 0
      · subst ht
        have hsame : server = th := Option.some.inj (hserver.symm.trans hth)
        refine ⟨th.advance left id s rest, ?_, (hsame ▸ hserves).advance hstack left id⟩
        exact List.getElem?_set_self (List.getElem?_eq_some_iff.1 hth).1
      · exact ⟨server, (List.getElem?_set_ne ht).trans hserver, hserves⟩

/-- Every reachable configuration is sound. -/
theorem Ordered.sound (hP : P.Ordered rank)
    (hc : LabelledSystem.Reachable (· = P.initial) P.step c) : P.Sound rank c.threads := by
  refine hc.invariant (P := fun c ↦ P.Sound rank c.threads) (fun c hinit ↦ ?_)
    fun c l c' hsound h ↦ ?_
  · subst hinit
    obtain ⟨body, hbody⟩ := hP.server
    refine ⟨fun th hth ↦ List.mem_singleton.1 hth ▸ Sound.begin hP P.server,
      P.begin P.server, rfl, rfl, [], body, ?_⟩
    rw [SyncProgram.begin, hbody]
    rfl
  · obtain hmove | ⟨ths, hmove, hmove'⟩ := step_moves h
    · exact hsound.moves hP hmove
    · exact (hsound.moves hP hmove).moves hP hmove'

/-! ### No deadlock -/

/-- A thread waits only for what ranks below all that it holds and provides. -/
theorem Sound.rank_lt (h : P.Sound rank c.threads) {u : ℕ} {th : Thread κ ε} {r : Resource κ}
    (hth : c.threads[u]? = some th) (hwaits : P.Waits c u r) {k : κ}
    (hk : k ∈ P.provides th.entry ++ th.held.map HeldLock.kind) : rank r.kind < rank k := by
  obtain ⟨s, hs, th', rest, hth', hstack⟩ := hwaits.requests
  have hordered := h.ordered th (List.mem_of_getElem? hth)
  rw [← Option.some.inj (hth.symm.trans hth'), Thread.Ordered] at *
  rw [hstack, Skeleton.checks] at hordered
  obtain ⟨held, hcheck, -⟩ := Option.bind_eq_some_iff.1 hordered
  exact Skeleton.rank_lt_of_check hs hcheck hk

/-- Whatever a thread waits for, some thread can release it. -/
theorem Sound.exists_releases (h : P.Sound rank c.threads) {t : ℕ} {r : Resource κ}
    (hwaits : P.Waits c t r) : ∃ u, P.Releases c u r := by
  cases r with
  | lock k id =>
    obtain ⟨-, th, hmem, hheld⟩ := hwaits
    obtain ⟨u, hu⟩ := List.mem_iff_getElem?.1 hmem
    exact ⟨u, th, hu, hheld⟩
  | slot k =>
    -- The channel is one of the server's, and the server has not ended.
    obtain ⟨⟨th, rest, hth, hstack⟩, -⟩ := hwaits
    have hordered := h.ordered th (List.mem_of_getElem? hth)
    rw [Thread.Ordered, hstack, Skeleton.checks] at hordered
    obtain ⟨held, hcheck, -⟩ := Option.bind_eq_some_iff.1 hordered
    obtain ⟨⟨-, hserved⟩, -⟩ := Option.ite_none_right_eq_some.1 hcheck
    obtain ⟨server, hserver, hentry, l, body, hloop⟩ := h.serves
    refine ⟨0, server, hserver, hentry ▸ hserved, fun hnil ↦ ?_⟩
    exact List.append_ne_nil_of_right_ne_nil l (List.cons_ne_nil _ _) (hloop.symm.trans hnil)
  | completion k w => exact ⟨w, rfl⟩

/-- A thread that can release what is waited for, and that waits, waits for what ranks below. -/
theorem Sound.rank_lt_of_releases (h : P.Sound rank c.threads) {t u : ℕ} {r r' : Resource κ}
    (hwaits : P.Waits c t r) (hreleases : P.Releases c u r) (hwaits' : P.Waits c u r') :
    rank r'.kind < rank r.kind := by
  cases r with
  | lock k id =>
    obtain ⟨th, hth, x, hx, hkind, -⟩ := hreleases
    refine h.rank_lt hth hwaits' (List.mem_append_right _ ?_)
    exact hkind ▸ List.mem_map_of_mem hx
  | slot k =>
    obtain ⟨th, hth, hprovides, -⟩ := hreleases
    exact h.rank_lt hth hwaits' (List.mem_append_left _ hprovides)
  | completion k w =>
    obtain ⟨-, th, hth, hprovides, -⟩ := hwaits
    obtain rfl : u = w := hreleases
    exact h.rank_lt hth hwaits' (List.mem_append_left _ hprovides)

/-- **No deadlock.** In no reachable configuration of a program that passes the check is there a
deadlocked set of threads. -/
theorem Ordered.not_deadlocked (hP : P.Ordered rank)
    (hc : LabelledSystem.Reachable (· = P.initial) P.step c) (S : Set ℕ) : ¬P.Deadlocked c S := by
  rintro ⟨⟨t, ht⟩, hS⟩
  have hsound := hP.sound hc
  -- Along what the threads of the set wait for, the rank would sink without end.
  have hnone : ∀ n, ∀ t ∈ S, ∀ r, P.Waits c t r → (∀ u, P.Releases c u r → u ∈ S) →
      rank r.kind = n → False := by
    intro n
    induction n using Nat.strongRecOn with
    | ind n ih =>
      intro t ht r hwaits hreleasers hrank
      obtain ⟨u, hu⟩ := hsound.exists_releases hwaits
      obtain ⟨r', hwaits', hreleasers'⟩ := hS u (hreleasers u hu)
      have hlt := hsound.rank_lt_of_releases hwaits hu hwaits'
      exact ih _ (hrank ▸ hlt) u (hreleasers u hu) r' hwaits' hreleasers' rfl
  obtain ⟨r, hwaits, hreleasers⟩ := hS t ht
  exact hnone _ t ht r hwaits hreleasers rfl

end SyncProgram
