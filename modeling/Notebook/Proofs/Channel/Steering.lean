import Notebook.Proofs.Channel.Orderly

/-!
# Stopping a channel

A stop of a running channel, while nobody else is about to start or stop it, comes back only when
all is done that was submitted before.
-/

namespace Notebook

/-- Does the caller wait for the channel, to stop it after? -/
def Caller.isStopping : Caller → Bool
  | .stopping _ | .asking .stop _ | .putting .stop _ | .waiting .stop .. => true
  | _ => false

/-- The caller does not touch the thread of the channel before the first `n` entries are done. -/
def Caller.Behind (n : Nat) : Caller → Prop
  | .stopping before | .asking .stop before | .putting .stop before | .waiting .stop before _ =>
    n ≤ before
  | .weighing .stop _ => False
  | .unmarking | .creating | .launching | .marking | .joining | .awaiting _ | .checking
  | .dropping => False
  | _ => True

theorem Caller.behind_of_not_steering {c : Caller} (h : c.isSteering = false) (n : Nat) :
    c.Behind n := by
  cases c with
  | asking why | putting why | waiting why | weighing why =>
    cases why with
    | flush => trivial
    | stop => cases h
  | stopping | unmarking | creating | launching | marking | joining | awaiting | checking
  | dropping => cases h
  | free | flushed | failed | starting => trivial

theorem Caller.isStopping_of_isFree {c : Caller} (h : c.isFree = true) : c.isStopping = false := by
  cases c with
  | free | flushed | failed => rfl
  | _ => cases h

namespace Lane

variable {σ J : Type} {w : Worker σ J} {fails : J → σ → Bool} {s₀ : σ} {s : Lane σ J}

/-! ### What is written stays written -/

theorem grows_work (s : Lane σ J) (t : Nat) : s.toBook.Grows (s.work w fails t).toBook := by
  unfold work
  cases s.threads t with
  | holding e =>
    cases e with
    | job j => exact ⟨List.prefix_append _ _, List.prefix_append _ _⟩
    | bell k => exact ⟨List.prefix_rfl, List.prefix_append _ _⟩
  | taking =>
    simp only
    split <;> exact ⟨List.prefix_rfl, List.prefix_rfl⟩
  | _ => exact ⟨List.prefix_rfl, List.prefix_rfl⟩

theorem grows_step (s : Lane σ J) (e : Event J) : s.toBook.Grows (s.step w fails e).toBook := by
  cases e with
  | call name c =>
    obtain ⟨es, hbook⟩ := exists_book_begin name s c
    simp only [step]
    split
    · rw [hbook]
      exact .enqueue _ _
    · exact .refl _
  | goOn name =>
    obtain ⟨es, hbook⟩ := exists_book_goOn name s
    show s.toBook.Grows (s.goOn name).toBook
    rw [hbook]
    exact .enqueue _ _
  | work t => exact grows_work s t

theorem grows_run (s : Lane σ J) (es : List (Event J)) :
    s.toBook.Grows (s.run w fails es).toBook := by
  induction es using List.reverseRecOn with
  | nil => exact .refl _
  | append_singleton es e ih =>
    rw [run_concat]
    exact ih.trans (grows_step _ e)

/-- If at least as much is done as was submitted once, then just that is done. -/
theorem Orderly.prefix_executed (h : s.Orderly w s₀) {es : List (Entry J)}
    (hes : es <+: s.submitted) (hlength : es.length ≤ s.executed.length) : es <+: s.executed := by
  obtain ⟨t, ht⟩ := h.balanced
  exact List.prefix_of_prefix_length_le hes ht.executed_prefix hlength

/-! ### Stopping -/

/-- The channel runs, and nobody is about to start or to stop it. -/
structure Undisturbed (s : Lane σ J) : Prop where
  running : s.isRunning = true
  unmarked : s.stopMark = false
  nobody : ∀ name, (s.caller name).isSteering = false

/-- A caller is about to stop the channel, but not before the first `n` entries are done, and
nobody does it in the meantime. -/
structure Halting (n name : Nat) (s : Lane σ J) : Prop where
  running : s.isRunning = true
  unmarked : s.stopMark = false
  behind : ∀ other, (s.caller other).Behind n
  self : (s.caller name).isStopping = true

theorem Halting.place {n name : Nat} (h : s.Halting n name) {other : Nat} {c : Caller}
    (hbehind : c.Behind n) (hself : other = name → c.isStopping = true) :
    (s.place other c).Halting n name where
  running := h.running
  unmarked := h.unmarked
  behind some := by
    show (Function.update s.caller other c some).Behind n
    by_cases hsome : some = other
    · rwa [hsome, Function.update_self]
    · rw [Function.update_of_ne hsome]
      exact h.behind some
  self := by
    show (Function.update s.caller other c name).isStopping = true
    by_cases hname : name = other
    · rw [hname, Function.update_self]
      exact hself hname.symm
    · rw [Function.update_of_ne hname]
      exact h.self

/-- One who is no longer about to stop the channel is another one. -/
theorem Halting.ne {n name other : Nat} (h : s.Halting n name)
    (hother : (s.caller other).isStopping = false) : other ≠ name := by
  rintro rfl
  rw [h.self] at hother
  cases hother

theorem Halting.le_submitted {n name : Nat} (h : s.Halting n name) (ho : s.Orderly w s₀) :
    n ≤ s.submitted.length := by
  have hself := h.self
  have hbehind := h.behind name
  have hfits := ho.callers name
  cases hname : s.caller name with
  | stopping before =>
    rw [hname] at hbehind hfits
    exact Nat.le_trans hbehind hfits
  | asking why before | putting why before =>
    rw [hname] at hself hbehind hfits
    cases why with
    | flush => cases hself
    | stop => exact Nat.le_trans hbehind hfits
  | waiting why before place =>
    rw [hname] at hself hbehind hfits
    cases why with
    | flush => cases hself
    | stop =>
      obtain ⟨hlt, -⟩ := List.getElem?_eq_some_iff.mp hfits.2
      exact Nat.le_trans hbehind (Nat.le_trans hfits.1 (Nat.le_of_lt hlt))
  | _ =>
    rw [hname] at hself
    cases hself

theorem Halting.call {n name : Nat} (h : s.Halting n name) (ho : s.Orderly w s₀) {other : Nat}
    (hfree : (s.caller other).isFree = true) (c : Call J) :
    (s.begin other c).Halting n name := by
  have hne : other ≠ name := h.ne (Caller.isStopping_of_isFree hfree)
  cases c with
  | submit j =>
    have hsubmitted : (s.enqueue [.job j]).Halting n name :=
      ⟨h.running, h.unmarked, h.behind, h.self⟩
    exact hsubmitted.place trivial (absurd · hne)
  | start => exact h.place trivial (absurd · hne)
  | stop => exact h.place (h.le_submitted ho) (absurd · hne)
  | flush => exact h.place trivial (absurd · hne)

theorem Halting.goOn {n name : Nat} (h : s.Halting n name) (ho : s.Orderly w s₀) (other : Nat) :
    n ≤ (s.goOn other).executed.length ∨ (s.goOn other).Halting n name := by
  have hbehind := h.behind other
  have hfits := ho.callers other
  have hne : (s.caller other).isStopping = false → other ≠ name := h.ne
  unfold Lane.goOn
  cases hother : s.caller other with
  | free | flushed | failed => exact .inr h
  | starting =>
    simp only [h.running]
    exact .inr (h.place trivial (absurd · (hne (by rw [hother]; rfl))))
  | stopping before =>
    rw [hother] at hbehind
    obtain ⟨t, hown, -⟩ := isRunning_iff.mp h.running
    simp only [hown, Option.isSome_some]
    exact .inr (h.place hbehind fun _ => rfl)
  | asking why before =>
    rw [hother] at hbehind hne
    simp only [h.running]
    cases why with
    | flush => exact .inr (h.place trivial (absurd · (hne rfl)))
    | stop => exact .inr (h.place hbehind fun _ => rfl)
  | putting why before =>
    rw [hother] at hbehind hne
    have hput : (s.enqueue [.bell s.submitted.length]).Halting n name :=
      ⟨h.running, h.unmarked, h.behind, h.self⟩
    cases why with
    | flush => exact .inr (hput.place trivial (absurd · (hne rfl)))
    | stop => exact .inr (hput.place hbehind fun _ => rfl)
  | waiting why before place =>
    rw [hother] at hbehind hne hfits
    simp only
    split
    · next hrung =>
      cases why with
      | flush => exact .inr (h.place trivial (absurd · (hne rfl)))
      | stop =>
        -- The bell has rung, and it stands behind all that was submitted before the call.
        have hplace := ho.lt_of_mem_rung hrung
        exact .inl (Nat.le_trans hbehind (Nat.le_trans hfits.1 (Nat.le_of_lt hplace)))
    · exact .inr h
  | weighing why before =>
    rw [hother] at hbehind hne
    cases why with
    | flush => exact .inr (h.place trivial (absurd · (hne rfl)))
    | stop => exact hbehind.elim
  | _ =>
    rw [hother] at hbehind
    exact hbehind.elim

/-- As long as there is no stop mark no thread comes to its end. -/
theorem isAlive_work (hmark : s.stopMark = false) (t u : Nat) :
    (((s.work w fails t).threads u).isAlive) = (s.threads u).isAlive := by
  have hturn : ∀ v : Writing J, v.isAlive = (s.threads t).isAlive →
      (Function.update s.threads t v u).isAlive = (s.threads u).isAlive := by
    intro v hv
    by_cases hu : u = t
    · rw [hu, Function.update_self, hv]
    · rw [Function.update_of_ne hu]
  unfold work
  cases ht : s.threads t with
  | fresh | ended => rfl
  | looking =>
    simp only [hmark]
    exact hturn _ (by rw [ht]; rfl)
  | taking =>
    simp only
    split <;> exact hturn _ (by rw [ht]; rfl)
  | holding e => cases e <;> exact hturn _ (by rw [ht]; rfl)
  | counting => exact hturn _ (by rw [ht]; rfl)

/-- A thread changes nothing but the book and itself. -/
theorem frame_work (w : Worker σ J) (fails : J → σ → Bool) (s : Lane σ J) (t : Nat) :
    (s.work w fails t).own = s.own ∧ (s.work w fails t).stopMark = s.stopMark ∧
      (s.work w fails t).born = s.born ∧ (s.work w fails t).caller = s.caller := by
  unfold work
  cases s.threads t with
  | taking =>
    simp only
    split <;> exact ⟨rfl, rfl, rfl, rfl⟩
  | holding e => cases e <;> exact ⟨rfl, rfl, rfl, rfl⟩
  | _ => exact ⟨rfl, rfl, rfl, rfl⟩

theorem Halting.work {n name : Nat} (h : s.Halting n name) (t : Nat) :
    (s.work w fails t).Halting n name := by
  obtain ⟨hown, hmark, -, hcaller⟩ := frame_work w fails s t
  refine ⟨?_, hmark.trans h.unmarked, fun other => hcaller ▸ h.behind other, hcaller ▸ h.self⟩
  have hrunning := h.running
  unfold isRunning at hrunning ⊢
  simpa only [hown, isAlive_work h.unmarked] using hrunning

theorem Halting.step {n name : Nat} (h : s.Halting n name) (ho : s.Orderly w s₀) (e : Event J) :
    n ≤ (s.step w fails e).executed.length ∨ (s.step w fails e).Halting n name := by
  cases e with
  | call other c =>
    simp only [Lane.step]
    split
    · next hfree => exact .inr (h.call ho hfree c)
    · exact .inr h
  | goOn other => exact h.goOn ho other
  | work t => exact .inr (h.work t)

theorem Halting.run {n name : Nat} (h : s.Halting n name) (ho : s.Orderly w s₀)
    {es : List (Event J)} (hone : s.OneWriterAlong w fails es) :
    n ≤ (s.run w fails es).executed.length ∨ (s.run w fails es).Halting n name := by
  induction es using List.reverseRecOn with
  | nil => exact .inr h
  | append_singleton es e ih =>
    have hpast : s.OneWriterAlong w fails es := hone.left
    rw [run_concat]
    rcases ih hpast with hdone | hhalting
    · exact .inl (Nat.le_trans hdone (grows_step _ e).executed.length_le)
    · exact hhalting.step (ho.run hpast) e

/-- A stop of a channel that runs undisturbed comes back only when all is done that was submitted
before. -/
theorem Undisturbed.submitted_prefix (h : s.Undisturbed) (ho : s.Orderly w s₀) {name : Nat}
    (hfree : (s.caller name).isFree = true) {later : List (Event J)}
    (hone : s.OneWriterAlong w fails (.call name .stop :: later))
    (hback : ((s.run w fails (.call name .stop :: later)).caller name).isFree = true) :
    s.submitted <+: (s.run w fails (.call name .stop :: later)).executed := by
  have hfirst : s.step w fails (.call name .stop) = s.begin name .stop := by simp [step, hfree]
  have hrun : s.run w fails (.call name .stop :: later) =
      (s.begin name .stop).run w fails later := by
    rw [← hfirst]
    rfl
  have hlater : (s.begin name .stop).OneWriterAlong w fails later :=
    hfirst ▸ OneWriterAlong.right (show s.OneWriterAlong w fails ([.call name .stop] ++ later)
      from hone)
  have horderly : (s.begin name .stop).Orderly w s₀ := ho.call hfree .stop
  have hbegun : (s.begin name .stop).Halting s.submitted.length name := by
    refine ⟨h.running, h.unmarked, fun other => ?_, ?_⟩
    · show (Function.update s.caller name _ other).Behind _
      by_cases hother : other = name
      · rw [hother, Function.update_self]
        exact Nat.le_refl _
      · rw [Function.update_of_ne hother]
        exact Caller.behind_of_not_steering (h.nobody other) _
    · show (Function.update s.caller name _ name).isStopping = true
      rw [Function.update_self]
      rfl
  rw [hrun] at hback ⊢
  have hsubmitted : s.submitted <+: ((s.begin name .stop).run w fails later).submitted :=
    (grows_run (s.begin name .stop) later).submitted
  rcases hbegun.run horderly hlater with hdone | hhalting
  · exact (horderly.run hlater).prefix_executed hsubmitted hdone
  · have hself := hhalting.self
    rw [Caller.isStopping_of_isFree hback] at hself
    cases hself

end Lane

end Notebook
