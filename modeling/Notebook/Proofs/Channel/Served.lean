import Notebook.Proofs.Channel.Steering

/-!
# What was submitted is done

A thread that is not told to stop comes to the end of whatever stood in the queue, in a number of
its own steps that can be told beforehand.  That jobs fail changes nothing in that.
-/

namespace Notebook

variable {σ J : Type}

/-- How many steps a thread takes until `n` more entries are done. -/
def Writing.toGo : Writing J → Nat → Nat
  | _, 0 => 0
  | .looking, n + 1 => 4 * n + 3
  | .taking, n + 1 => 4 * n + 2
  | .holding _, n + 1 => 4 * n + 1
  | _, n + 1 => 4 * n + 4

theorem Writing.toGo_le (v : Writing J) (n : Nat) : v.toGo n ≤ 4 * n := by
  cases n with
  | zero => cases v <;> exact Nat.le_refl _
  | succ n => cases v <;> simp only [toGo] <;> omega

theorem Writing.eq_zero_of_toGo {v : Writing J} {n : Nat} (h : v.toGo n = 0) : n = 0 := by
  cases n with
  | zero => rfl
  | succ n => cases v <;> simp only [toGo] at h <;> omega

namespace Lane

variable {w : Worker σ J} {fails : J → σ → Bool} {s₀ : σ} {s : Lane σ J}

/-! ### Failures -/

/-- The lane without what was taken down of failures. -/
def forget (s : Lane σ J) : Lane σ J := { s with failures := [] }

theorem forget_goOn (s : Lane σ J) (name : Nat) : (s.goOn name).forget = s.forget.goOn name := by
  unfold goOn
  cases hname : s.caller name with
  | launching =>
    simp only [launch, forget, hname]
    split
    · rfl
    · split <;> rfl
  | joining =>
    simp only [join, forget, hname]
    split
    · rfl
    · split <;> rfl
  | waiting why before place =>
    simp only [forget, hname]
    exact apply_ite forget _ _ _
  | awaiting =>
    simp only [forget, hname]
    split <;> rfl
  | _ => simp only [forget, hname] <;> rfl

theorem forget_work (fails' : J → σ → Bool) (s : Lane σ J) (t : Nat) :
    (s.work w fails t).forget = (s.forget.work w fails' t).forget := by
  unfold work
  cases ht : s.threads t with
  | taking =>
    simp only [forget, ht]
    split <;> rfl
  | holding e => cases e <;> simp only [forget, ht] <;> rfl
  | _ => simp only [forget, ht] <;> rfl

theorem forget_step (fails' : J → σ → Bool) (s : Lane σ J) (e : Event J) :
    (s.step w fails e).forget = (s.forget.step w fails' e).forget := by
  cases e with
  | call name c =>
    have hbegin : (s.begin name c).forget = (s.forget.begin name c).forget := by cases c <;> rfl
    show (if (s.caller name).isFree = true then s.begin name c else s).forget =
      (if (s.caller name).isFree = true then s.forget.begin name c else s.forget).forget
    rw [apply_ite forget, apply_ite forget, hbegin]
    rfl
  | goOn name => exact (congrArg forget (forget_goOn s name)).trans rfl
  | work t => exact forget_work fails' s t

/-- Which jobs fail makes no difference to anything else. -/
theorem forget_run (fails' : J → σ → Bool) (s : Lane σ J) (es : List (Event J)) :
    (s.run w fails es).forget = (s.run w fails' es).forget := by
  induction es using List.reverseRecOn with
  | nil => rfl
  | append_singleton es e ih =>
    rw [run_concat, run_concat, forget_step fails', ih, ← forget_step]

/-- The jobs that fail when jobs are done one after the other. -/
def failed (w : Worker σ J) (fails : J → σ → Bool) : σ → List J → List J
  | _, [] => []
  | s, j :: js => (if fails j s then [j] else []) ++ failed w fails (w.run j s).1 js

theorem failed_concat (s : σ) (js : List J) (j : J) :
    failed w fails s (js ++ [j]) =
      failed w fails s js ++ (if fails j (inTurn w s js) then [j] else []) := by
  induction js generalizing s with
  | nil => exact List.append_nil _
  | cons j' js ih =>
    simp only [List.cons_append, failed, ih, List.append_assoc]
    rfl

theorem executed_goOn (s : Lane σ J) (name : Nat) : (s.goOn name).executed = s.executed := by
  obtain ⟨es, hbook⟩ := exists_book_goOn name s
  rw [hbook]
  rfl

/-- What is taken down of failures agrees with what is done. -/
theorem Orderly.failures_step (h : s.Orderly w s₀)
    (hs : s.failures = failed w fails s₀ (Entry.jobs s.executed)) (e : Event J) :
    (s.step w fails e).failures = failed w fails s₀ (Entry.jobs (s.step w fails e).executed) := by
  cases e with
  | call name c =>
    simp only [Lane.step]
    split
    · cases c <;> exact hs
    · exact hs
  | goOn name =>
    obtain ⟨es, hbook⟩ := exists_book_goOn name s
    show (s.goOn name).failures = failed w fails s₀ (Entry.jobs (s.goOn name).executed)
    rw [hbook]
    exact hs
  | work t =>
    simp only [Lane.step, Lane.work]
    cases s.threads t with
    | taking =>
      simp only
      split <;> exact hs
    | holding e =>
      cases e with
      | job j =>
        show (if fails j s.state then s.failures ++ [j] else s.failures) =
          failed w fails s₀ (Entry.jobs (s.executed ++ [.job j]))
        rw [Entry.jobs_append, Entry.jobs_job, failed_concat, ← h.state, hs]
        split <;> simp
      | bell k =>
        show s.failures = failed w fails s₀ (Entry.jobs (s.executed ++ [.bell k]))
        rw [Entry.jobs_append, Entry.jobs_bell, List.append_nil, hs]
    | _ => exact hs

theorem failures_run {es : List (Event J)} (hone : (new s₀).OneWriterAlong w fails es) :
    ((new s₀).run w fails es).failures =
      failed w fails s₀ (Entry.jobs ((new s₀).run w fails es).executed) := by
  induction es using List.reverseRecOn with
  | nil => rfl
  | append_singleton es e ih =>
    rw [run_concat]
    exact ((orderly_new w s₀).run hone.left).failures_step (ih hone.left) e

/-! ### Callers and the thread -/

/-- Callers leave a thread alone that is at work. -/
theorem threads_goOn {t : Nat} (halive : (s.threads t).isAlive = true) (name : Nat) :
    (s.goOn name).threads t = s.threads t := by
  unfold goOn
  cases s.caller name with
  | launching =>
    simp only [launch]
    split
    · rfl
    · next u hown =>
      split
      · next hfresh =>
        have hne : t ≠ u := by
          rintro rfl
          rw [hfresh] at halive
          cases halive
        exact Function.update_of_ne hne _ _
      · rfl
  | joining =>
    simp only [join]
    split
    · rfl
    · split <;> rfl
  | waiting | awaiting =>
    simp only
    split <;> rfl
  | _ => rfl

/-! ### How long it takes -/

/-- How many steps the thread `t` takes until the first `n` entries are done. -/
def toGo (n t : Nat) (s : Lane σ J) : Nat := (s.threads t).toGo (n - s.executed.length)

def Event.isWork (t : Nat) : Event J → Bool
  | .work u => u = t
  | _ => false

theorem Orderly.toGo_work (h : s.Orderly w s₀) {n t : Nat} (hn : n ≤ s.submitted.length)
    (halive : (s.threads t).isAlive = true) (hmark : s.stopMark = false) :
    (s.work w fails t).toGo n t = s.toGo n t - 1 := by
  have hfifo := (h.balanced_of_alive halive).fifo
  have hturn : ∀ (s' : Lane σ J) (v : Writing J), (turn t v s').threads t = v :=
    fun s' v => Function.update_self _ _ _
  unfold toGo Lane.work
  cases ht : s.threads t with
  | fresh | ended =>
    rw [ht] at halive
    cases halive
  | looking =>
    simp only [hmark, Bool.false_eq_true, if_false, hturn]
    show Writing.taking.toGo (n - s.executed.length) = _
    cases n - s.executed.length <;> rfl
  | taking =>
    rw [ht] at hfifo
    cases hqueue : s.queue with
    | nil =>
      have hlength : s.submitted.length = s.executed.length := by
        rw [hfifo, hqueue]
        simp [Writing.held]
      have hnone : n - s.executed.length = 0 := by omega
      show (Writing.toGo _ (n - s.executed.length)) = _
      rw [hnone]
      rfl
    | cons e r =>
      simp only [hturn]
      show (Writing.holding e).toGo (n - s.executed.length) = _
      cases n - s.executed.length <;> rfl
  | holding e =>
    have hexecuted : (turn t .counting { s with toBook := s.toBook.execute w fails e }).executed =
        s.executed ++ [e] := by cases e <;> rfl
    simp only [hturn, hexecuted, List.length_append, List.length_singleton]
    rcases hleft : n - s.executed.length with _ | m
    · rw [show n - (s.executed.length + 1) = 0 by omega]
      rfl
    · rw [show n - (s.executed.length + 1) = m by omega]
      cases m <;> rfl
  | counting =>
    simp only [hturn]
    show Writing.looking.toGo (n - s.executed.length) = _
    cases n - s.executed.length <;> rfl

variable (fails) in
theorem Orderly.toGo_step (h : s.Orderly w s₀) {n t : Nat} (hn : n ≤ s.submitted.length)
    (halive : (s.threads t).isAlive = true) (hmark : s.stopMark = false) (e : Event J) :
    ((s.step w fails e).threads t).isAlive = true ∧
      (s.step w fails e).toGo n t = s.toGo n t - (if e.isWork t then 1 else 0) := by
  cases e with
  | call name c =>
    simp only [Lane.step]
    split
    · cases c <;> exact ⟨halive, rfl⟩
    · exact ⟨halive, rfl⟩
  | goOn name =>
    refine ⟨(threads_goOn halive name).symm ▸ halive, ?_⟩
    show (s.goOn name).toGo n t = s.toGo n t
    rw [toGo, threads_goOn halive, executed_goOn]
    rfl
  | work u =>
    refine ⟨(isAlive_work hmark u t).trans halive, ?_⟩
    by_cases hu : u = t
    · subst hu
      simpa [Lane.step, Event.isWork] using h.toGo_work hn halive hmark
    · -- The other thread is not alive.
      have hdead : (s.threads u).isAlive = false := by
        by_contra hother
        exact hu ((h.balanced_of_alive halive).alone u (by simpa using hother))
      have hsame : s.work w fails u = s := by
        unfold Lane.work
        cases ht : s.threads u with
        | fresh | ended => rfl
        | _ =>
          rw [ht] at hdead
          cases hdead
      simp [Event.isWork, hu, Lane.step, hsame]

theorem Orderly.toGo_run (h : s.Orderly w s₀) {n t : Nat} (hn : n ≤ s.submitted.length)
    (halive : (s.threads t).isAlive = true) {later : List (Event J)}
    (hone : s.OneWriterAlong w fails later)
    (hmark : ∀ past, past <+: later → (s.run w fails past).stopMark = false) :
    ((s.run w fails later).threads t).isAlive = true ∧
      (s.run w fails later).toGo n t = s.toGo n t - later.countP (Event.isWork t) := by
  induction later using List.reverseRecOn with
  | nil => exact ⟨halive, rfl⟩
  | append_singleton later e ih =>
    have hbefore : later <+: later ++ [e] := List.prefix_append _ _
    obtain ⟨hstill, hpast⟩ := ih hone.left fun past hpast => hmark past (hpast.trans hbefore)
    have hsubmitted : s.submitted.length ≤ (s.run w fails later).submitted.length :=
      (grows_run s later).submitted.length_le
    rw [run_concat]
    obtain ⟨hnow, hlast⟩ := (h.run hone.left).toGo_step fails (Nat.le_trans hn hsubmitted) hstill
      (hmark later hbefore) e
    refine ⟨hnow, ?_⟩
    rw [hlast, hpast, List.countP_append, Nat.sub_add_eq, List.countP_singleton]

/-- As long as nobody tells the thread to stop, four of its steps for each entry that is left are
enough, whatever is called in between. -/
theorem Orderly.served (h : s.Orderly w s₀) {t : Nat} (halive : (s.threads t).isAlive = true)
    {later : List (Event J)} (hone : s.OneWriterAlong w fails later)
    (hmark : ∀ past, past <+: later → (s.run w fails past).stopMark = false)
    (hcount : 4 * (s.submitted.length - s.executed.length) ≤ later.countP (Event.isWork t)) :
    s.submitted <+: (s.run w fails later).executed := by
  obtain ⟨-, hrun⟩ := h.toGo_run (Nat.le_refl _) halive hone hmark
  have hbound : s.toGo s.submitted.length t ≤ later.countP (Event.isWork t) :=
    Nat.le_trans (Writing.toGo_le _ _) hcount
  have hnone := Writing.eq_zero_of_toGo (hrun.trans (Nat.sub_eq_zero_of_le hbound))
  exact (h.run hone).prefix_executed (grows_run s later).submitted (by omega)

end Lane

end Notebook
