import Notebook.Proofs.Channel.Alone
import Notebook.Proofs.Channel.Served

/-!
# Every job once, in order

What those may rely on who share a channel: jobs are done in the order in which they were submitted,
each one once, across starts and stops; one who comes back from a flush or a stop has seen done what
was there before; and what comes in while the channel stands still waits for its next start.
-/

namespace Notebook

variable {σ J : Type}

theorem Entry.eq_map_jobs {es : List (Entry J)} (h : ∀ k, Entry.bell k ∉ es) :
    es = (Entry.jobs es).map .job := by
  induction es with
  | nil => rfl
  | cons e es ih =>
    have hes := ih fun k hk => h k (List.mem_cons_of_mem _ hk)
    cases e with
    | bell k => exact absurd List.mem_cons_self (h k)
    | job j => exact congrArg (List.cons (Entry.job j)) hes

namespace Lane

variable {w : Worker σ J} {fails : J → σ → Bool} {s₀ : σ} {s : Lane σ J}

/-! ### What a caller keeps in mind during a flush -/

theorem flushing_step {name n : Nat} (h : (s.caller name).Flushing n) {e : Event J}
    (he : ∀ c, e ≠ .call name c) : ((s.step w fails e).caller name).Flushing n := by
  cases e with
  | call other c =>
    have hne : name ≠ other := by
      rintro rfl
      exact he c rfl
    have hother : ∀ c' : Caller, (Function.update s.caller other c' name).Flushing n := by
      intro c'
      rwa [Function.update_of_ne hne]
    simp only [step]
    split
    · cases c <;> exact hother _
    · exact h
  | goOn other =>
    by_cases hne : name = other
    · subst hne
      exact (flush_goOn h.not_steering).2 n h
    · show ((s.goOn other).caller name).Flushing n
      rwa [caller_goOn_of_ne hne]
  | work t =>
    obtain ⟨-, -, -, hcaller⟩ := frame_work w fails s t
    show (Lane.caller (s.work w fails t) name).Flushing n
    rwa [hcaller]

theorem flushing_run {name n : Nat} (h : (s.caller name).Flushing n) {later : List (Event J)}
    (hlater : ∀ c, .call name c ∉ later) : ((s.run w fails later).caller name).Flushing n := by
  induction later using List.reverseRecOn with
  | nil => exact h
  | append_singleton later e ih =>
    rw [run_concat]
    refine flushing_step (ih fun c hc => hlater c (by simp [hc])) ?_
    rintro c rfl
    exact hlater c (by simp)

/-- One who comes back from a flush with the answer that all is done has seen it. -/
theorem Orderly.flushed_prefix (h : s.Orderly w s₀) {name : Nat}
    (hfree : (s.caller name).isFree = true) {later : List (Event J)}
    (hlater : ∀ c, .call name c ∉ later)
    (hone : s.OneWriterAlong w fails (.call name .flush :: later)) {before : Nat}
    (hback : (s.run w fails (.call name .flush :: later)).caller name = .flushed before true) :
    s.submitted <+: (s.run w fails (.call name .flush :: later)).executed := by
  have hfirst : s.step w fails (.call name .flush) =
      s.place name (.asking .flush s.submitted.length) := by simp [Lane.step, hfree, begin]
  have hbegun : ((s.step w fails (.call name .flush)).caller name).Flushing s.submitted.length := by
    rw [hfirst, caller_place]
    rfl
  have hbefore : before = s.submitted.length := by
    have hflushing : ((s.run w fails (.call name .flush :: later)).caller name).Flushing
        s.submitted.length := flushing_run hbegun hlater
    rwa [hback] at hflushing
  have hafter := h.run hone
  have hfits := hafter.callers name
  rw [hback, hbefore] at hfits
  exact hafter.prefix_executed (grows_run s _).submitted (hfits.2 rfl)

/-! ### While no thread is alive -/

theorem Orderly.submitted_eq_of_stopped (h : s.Orderly w s₀) (hstopped : s.Stopped) :
    s.submitted = s.executed ++ s.queue := by
  obtain ⟨t, ht⟩ := h.balanced
  rw [ht.fifo, Writing.held_of_not_alive (hstopped t), List.append_nil]

/-- One who asks whether anything is left while no thread is alive learns it. -/
theorem Orderly.weighed (h : s.Orderly w s₀) (hstopped : s.Stopped) {name before : Nat}
    (hname : s.caller name = .weighing .flush before) :
    ∃ answer, (s.goOn name).caller name = .flushed before answer ∧
      (answer = false ↔ s.queue ≠ []) := by
  obtain ⟨t, ht⟩ := h.balanced
  have hcount : s.unfinished = s.queue.length := by
    rw [ht.count, Writing.owing_of_not_alive (hstopped t)]
    rfl
  refine ⟨decide (s.unfinished = 0), ?_, ?_⟩
  · unfold Lane.goOn
    rw [hname]
    exact caller_place _ _ _
  · simp [hcount]

/-- Who looks whether the channel runs sees that it does not. -/
theorem asked_of_stopped (hstopped : s.Stopped) {name before : Nat}
    (hname : s.caller name = .asking .flush before) :
    (s.goOn name).caller name = .weighing .flush before := by
  have hrunning : s.isRunning = false := by
    by_contra hrunning
    exact not_stopped_of_isRunning (by simpa using hrunning) hstopped
  unfold goOn
  rw [hname, hrunning]
  exact caller_place _ _ _

/-- Only who is in the middle of a flush or a stop has left anything in the queue that is no job. -/
theorem Orderly.queue_eq_of_nobody_waits (h : s.Orderly w s₀)
    (hnobody : ∀ name why before place, s.caller name ≠ .waiting why before place) :
    s.queue = (Entry.jobs s.queue).map .job := by
  refine Entry.eq_map_jobs fun k hk => ?_
  obtain ⟨i, hi⟩ := List.mem_iff_getElem?.mp hk
  obtain ⟨t, ht⟩ := h.balanced
  let front := s.executed ++ (s.threads t).held
  have hplace : s.submitted[front.length + i]? = some (Entry.bell k) := by
    rw [ht.fifo, List.getElem?_append_right (Nat.le_add_right _ _), Nat.add_sub_cancel_left]
    exact hi
  have hle : s.executed.length ≤ front.length + i := by
    simp only [front, List.length_append]
    omega
  obtain rfl := h.bells _ _ hplace
  obtain ⟨name, why, before, hwaiting⟩ := h.awaited _ hle hplace
  exact hnobody _ _ _ _ hwaiting

variable (w fails) in
theorem executed_step_of_stopped (hstopped : s.Stopped) (e : Event J) :
    (s.step w fails e).executed = s.executed ∧ s.queue <+: (s.step w fails e).queue := by
  cases e with
  | call name c =>
    obtain ⟨es, hbook⟩ := exists_book_begin name s c
    simp only [step]
    split
    · rw [hbook]
      exact ⟨rfl, List.prefix_append _ _⟩
    · exact ⟨rfl, List.prefix_rfl⟩
  | goOn name =>
    obtain ⟨es, hbook⟩ := exists_book_goOn name s
    show (s.goOn name).executed = _ ∧ _ <+: (s.goOn name).queue
    rw [hbook]
    exact ⟨rfl, List.prefix_append _ _⟩
  | work t =>
    have hsame : s.work w fails t = s := by
      have hdead := hstopped t
      unfold work
      cases ht : s.threads t with
      | fresh | ended => rfl
      | _ =>
        rw [ht] at hdead
        cases hdead
    show (s.work w fails t).executed = _ ∧ _ <+: (s.work w fails t).queue
    rw [hsame]
    exact ⟨rfl, List.prefix_rfl⟩

/-- As long as no thread is alive the queue only grows. -/
theorem executed_run_of_stopped {later : List (Event J)}
    (hstopped : ∀ past, past <+: later → (s.run w fails past).Stopped) :
    (s.run w fails later).executed = s.executed ∧ s.queue <+: (s.run w fails later).queue := by
  induction later using List.reverseRecOn with
  | nil => exact ⟨rfl, List.prefix_rfl⟩
  | append_singleton later e ih =>
    have hbefore : later <+: later ++ [e] := List.prefix_append _ _
    obtain ⟨hexecuted, hqueue⟩ := ih fun past hpast => hstopped past (hpast.trans hbefore)
    obtain ⟨hexecuted', hqueue'⟩ := executed_step_of_stopped w fails (hstopped later hbefore) e
    rw [run_concat]
    exact ⟨hexecuted'.trans hexecuted, hqueue.trans hqueue'⟩

/-- What stands in the queue while no thread is alive is done first of all that is done later. -/
theorem Orderly.queue_first (h : s.Orderly w s₀) (hstopped : s.Stopped) {later : List (Event J)}
    (hone : s.OneWriterAlong w fails later) :
    ∃ ran more, (s.run w fails later).executed = s.executed ++ ran ∧
      (s.run w fails later).submitted = s.submitted ++ more ∧ ran <+: s.queue ++ more := by
  obtain ⟨more, hmore⟩ : s.submitted <+: (s.run w fails later).submitted :=
    (grows_run s later).submitted
  obtain ⟨ran, hran⟩ : s.executed <+: (s.run w fails later).executed := (grows_run s later).executed
  refine ⟨ran, more, hran.symm, hmore.symm, ?_⟩
  obtain ⟨t, ht⟩ := (h.run hone).balanced
  have hprefix := ht.executed_prefix
  rw [← hran, ← hmore, h.submitted_eq_of_stopped hstopped, List.append_assoc] at hprefix
  exact (List.prefix_append_right_inj _).mp hprefix

/-! ### All together -/

/-- What those may rely on at any moment who share a channel, whatever they call `later`. -/
structure InOrder (w : Worker σ J) (fails : J → σ → Bool) (s₀ : σ) (s : Lane σ J)
    (later : List (Event J)) : Prop where
  /-- What is done is the beginning of what was submitted: each entry once, in its turn. -/
  executed : s.executed <+: s.submitted
  state : s.state = inTurn w s₀ (Entry.jobs s.executed)
  /-- A job that fails is done with like any other. -/
  failures : s.failures = failed w fails s₀ (Entry.jobs s.executed)
  /-- While a thread is at work everything is done after a while. -/
  served : ∀ t, (s.threads t).isAlive = true →
    (∀ past, past <+: later → (s.run w fails past).stopMark = false) →
      4 * (s.submitted.length - s.executed.length) ≤ later.countP (Event.isWork t) →
        s.submitted <+: (s.run w fails later).executed
  flushed : ∀ name rest before, later = .call name .flush :: rest → (s.caller name).isFree = true →
    (∀ c, .call name c ∉ rest) → (s.run w fails later).caller name = .flushed before true →
      s.submitted <+: (s.run w fails later).executed
  /-- A flush has two looks at a channel that stands still. -/
  asked : s.Stopped → ∀ name before, s.caller name = .asking .flush before →
    (s.goOn name).caller name = .weighing .flush before
  weighed : s.Stopped → ∀ name before, s.caller name = .weighing .flush before →
    ∃ answer, (s.goOn name).caller name = .flushed before answer ∧
      (answer = false ↔ s.queue ≠ [])
  /-- Nothing but jobs is left in the queue if nobody waits. -/
  queue : (∀ name why before place, s.caller name ≠ .waiting why before place) →
    s.queue = (Entry.jobs s.queue).map .job
  stopped : ∀ name rest, later = .call name .stop :: rest → (s.caller name).isFree = true →
    s.Undisturbed → ((s.run w fails later).caller name).isFree = true →
      s.submitted <+: (s.run w fails later).executed
  /-- What comes in while the channel stands still stays in the queue. -/
  kept : (∀ past, past <+: later → (s.run w fails past).Stopped) →
    (s.run w fails later).executed = s.executed ∧ s.queue <+: (s.run w fails later).queue
  /-- It is done before all that is submitted later. -/
  first : s.Stopped → s.submitted = s.executed ++ s.queue ∧
    ∃ ran more, (s.run w fails later).executed = s.executed ++ ran ∧
      (s.run w fails later).submitted = s.submitted ++ more ∧ ran <+: s.queue ++ more
  /-- So does a channel behave towards one who calls on it and waits. -/
  alone : s.Settled → ∀ name, (s.caller name).isFree = true → ∀ u : Channel.Use J,
    ∃ more, s.Reaches w fails name more (s.channel.use w u).2 ∧
      ∀ a ∈ (s.channel.use w u).1, ∃ before, (s.run w fails more).caller name = .flushed before a

/-- A channel does every job once, in the order in which they were submitted, across starts and
stops, whatever its callers do in the middle of one another's calls, as long as no two threads are
alive.  So it is if nobody starts or stops the channel while somebody else is about to; then whoever
stops a channel that runs comes back only when all is done that was submitted before. -/
theorem run_in_order (w : Worker σ J) (fails : J → σ → Bool) (s₀ : σ) (es later : List (Event J))
    (hone : (new s₀).OneWriterAlong w fails (es ++ later)) :
    ((new s₀).run w fails es).InOrder w fails s₀ later ∧
      (∀ fails', ((new s₀).run w fails es).forget = ((new s₀).run w fails' es).forget) ∧
      ((new s₀).SerialAlong w fails (es ++ later) → ∀ name rest, later = .call name .stop :: rest →
        (((new s₀).run w fails es).caller name).isFree = true →
          ((new s₀).run w fails es).isRunning = true →
            (((new s₀).run w fails (es ++ later)).caller name).isFree = true →
              ((new s₀).run w fails es).submitted <+:
                ((new s₀).run w fails (es ++ later)).executed) ∧
      (new s₀ : Lane σ J).Settled ∧ (new s₀ : Lane σ J).channel = Channel.new s₀ := by
  have hes : ((new s₀).run w fails es).Orderly w s₀ := (orderly_new w s₀).run hone.left
  have hlater := hone.right
  have hstopped : ∀ name rest, later = .call name .stop :: rest →
      (((new s₀).run w fails es).caller name).isFree = true →
        ((new s₀).run w fails es).Undisturbed →
          ((((new s₀).run w fails es).run w fails later).caller name).isFree = true →
            ((new s₀).run w fails es).submitted <+:
              (((new s₀).run w fails es).run w fails later).executed := by
    rintro name rest rfl hfree hundisturbed hback
    exact hundisturbed.submitted_prefix hes hfree hlater hback
  refine ⟨?_, fun fails' => forget_run fails' _ es, ?_, settled_new s₀, rfl⟩
  · obtain ⟨t, ht⟩ := hes.balanced
    exact
      { executed := ht.executed_prefix
        state := hes.state
        failures := failures_run hone.left
        served := fun t halive hmark hcount => hes.served halive hlater hmark hcount
        flushed := by
          rintro name rest before rfl hfree hrest hback
          exact hes.flushed_prefix hfree hrest hlater hback
        asked := fun hstill name before hname => asked_of_stopped hstill hname
        weighed := fun hstill name before hname => hes.weighed hstill hname
        queue := hes.queue_eq_of_nobody_waits
        stopped := hstopped
        kept := executed_run_of_stopped
        first := fun hstill => ⟨hes.submitted_eq_of_stopped hstill, hes.queue_first hstill hlater⟩
        alone := fun hsettled name hfree u => exists_reaches_use hsettled hfree u }
  · rintro hserial name rest rfl hfree hrunning hback
    have hsteered := (steered_new s₀).run (hserial.of_prefix (List.prefix_append _ _))
    have hcall : es ++ [.call name .stop] <+: es ++ .call name .stop :: rest :=
      (List.prefix_append_right_inj es).mpr ⟨rest, rfl⟩
    have hnobody := hserial es name .stop hcall rfl hfree
    rw [run_append] at hback ⊢
    exact hstopped name rest rfl hfree (hsteered.undisturbed hrunning hnobody) hback

/-! A channel that is stopped and started again.  The first caller owns it, the second submits jobs:
one while the first waits to stop the channel, and one before it starts it again. -/

def noting : Worker (List Nat) Nat where
  run j s := (s ++ [j], [])
  size _ := 1
  smaller _ _ := Nat.zero_lt_one

def failsOnThree (j : Nat) (_ : List Nat) : Bool := j == 3

def beforeStop : List (Event Nat) :=
  [.call 1 (.submit 1), .call 0 .start] ++ List.replicate 4 (.goOn 0) ++ [.call 1 (.submit 3)] ++
    List.replicate 8 (.work 0)

def afterStop : List (Event Nat) :=
  List.replicate 3 (.goOn 0) ++ [.call 1 (.submit 5)] ++ List.replicate 4 (.work 0) ++
    List.replicate 3 (.goOn 0) ++ [.work 0] ++ List.replicate 3 (.goOn 0) ++
    [.call 1 (.submit 8), .call 0 .start] ++ List.replicate 4 (.goOn 0) ++
    List.replicate 8 (.work 1)

theorem run_in_order_restarted :
    (new []).OneWriterAlong noting failsOnThree (beforeStop ++ .call 0 .stop :: afterStop) ∧
      ((new []).run noting failsOnThree beforeStop).submitted <+:
        ((new []).run noting failsOnThree (beforeStop ++ .call 0 .stop :: afterStop)).executed ∧
      ((new []).run noting failsOnThree beforeStop).submitted = [.job 1, .job 3] ∧
      ((new []).run noting failsOnThree (beforeStop ++ .call 0 .stop :: afterStop)).executed =
        [.job 1, .job 3, .bell 2, .job 5, .job 8] := by
  have hsole : ∀ e ∈ beforeStop ++ .call 0 .stop :: afterStop,
      (match e with
        | .call name c => !c.isSteering || name = 0
        | _ => true) = true := by decide
  have hserial : (new []).SerialAlong noting failsOnThree
      (beforeStop ++ .call 0 .stop :: afterStop) :=
    serialAlong_of_sole 0 fun name c hcall hc => by simpa [hc] using hsole _ hcall
  have hone := hserial.oneWriterAlong
  exact ⟨hone, (run_in_order noting failsOnThree [] beforeStop _ hone).2.2.1 hserial 0 afterStop rfl
    (by decide) (by decide) (by decide), by decide, by decide⟩

/-! Two callers stop a channel at once.  The first has waited and sets the stop mark.  Before the
thread has seen that, the second one calls; then it finds that the channel runs no more, and comes
back with a job left that it had submitted. -/

def beforeSecondStop : List (Event Nat) :=
  .call 0 .start :: List.replicate 4 (.goOn 0) ++ .call 0 .stop :: List.replicate 3 (.goOn 0) ++
    List.replicate 4 (.work 0) ++ [.goOn 0, .call 1 (.submit 5), .goOn 0]

def afterSecondStop : List (Event Nat) := .work 0 :: List.replicate 8 (.goOn 1)

/-- Where stops overlap, whoever stops a channel that runs may come back with jobs left. -/
theorem not_stop_in_order :
    ¬ ∀ (es : List (Event Nat)) (name : Nat) (rest : List (Event Nat)),
      (new []).OneWriterAlong noting failsOnThree (es ++ .call name .stop :: rest) →
        (((new []).run noting failsOnThree es).caller name).isFree = true →
          ((new []).run noting failsOnThree es).isRunning = true →
            (((new []).run noting failsOnThree (es ++ .call name .stop :: rest)).caller
                name).isFree = true →
              ((new []).run noting failsOnThree es).submitted <+:
                ((new []).run noting failsOnThree (es ++ .call name .stop :: rest)).executed := by
  intro h
  have hone : (new []).OneWriterAlong noting failsOnThree
      (beforeSecondStop ++ .call 1 .stop :: afterSecondStop) := oneWriterAlong_of_own (by decide)
  have hall := h beforeSecondStop 1 afterSecondStop hone (by decide) (by decide) (by decide)
  exact absurd hall (by decide)

end Lane

end Notebook
