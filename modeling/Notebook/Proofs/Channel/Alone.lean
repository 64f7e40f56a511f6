import Notebook.Proofs.Channel.Serial

/-!
# A lane with one caller

What a channel offers to one who calls on it and waits is a run of a lane: the steps of the call,
and those of the thread that it waits for.
-/

namespace Notebook

variable {σ J : Type} {w : Worker σ J} {fails : J → σ → Bool}

namespace Channel

/-- The state when jobs have been done one after the other, and the jobs that they submit. -/
def doAll (w : Worker σ J) : σ → List J → σ × List J
  | s, [] => (s, [])
  | s, j :: js =>
    let r := doAll w (w.run j s).1 js
    (r.1, (w.run j s).2 ++ r.2)

/-- What one does with a channel who calls on it and waits.  The writer does a job now and then. -/
inductive Use (J : Type)
  | submit (j : J)
  | start
  | stop
  | flush
  | work

/-- The answer, if there is one, and the channel after. -/
def use (w : Worker σ J) (c : Channel σ J) : Use J → Option Bool × Channel σ J
  | .submit j => (none, c.submit j)
  | .start => (none, c.start)
  | .stop => (none, c.stopInTime w)
  | .flush => (some (c.flush w).1, (c.flush w).2)
  | .work => (none, c.step w)

/-- The writer does the jobs in front of the queue; those that they submit go to its end. -/
theorem steps_append (w : Worker σ J) (s : σ) (js q : List J) :
    (Channel.mk s (js ++ q) true []).steps w js.length =
      ⟨(doAll w s js).1, q ++ (doAll w s js).2, true, []⟩ := by
  induction js generalizing s q with
  | nil => simp [steps, doAll]
  | cons j js ih =>
    have hstep : (Channel.mk s (j :: js ++ q) true []).step w =
        ⟨(w.run j s).1, js ++ (q ++ (w.run j s).2), true, []⟩ := by simp [step]
    rw [List.length_cons, steps, hstep, ih]
    simp [doAll]

theorem steps_length (w : Worker σ J) (s : σ) (js : List J) :
    (Channel.mk s js true []).steps w js.length =
      ⟨(doAll w s js).1, (doAll w s js).2, true, []⟩ := by
  have := steps_append w s js []
  rwa [List.append_nil, List.nil_append] at this

end Channel

namespace Lane

variable {s : Lane σ J}

/-- What is seen of a lane as a channel. -/
def channel (s : Lane σ J) : Channel σ J := ⟨s.state, Entry.jobs s.queue, s.isRunning, []⟩

/-- Nobody waits for anything: there are only jobs in the queue, and the thread, if there is one,
has nothing at hand. -/
structure Settled (s : Lane σ J) : Prop where
  queue : ∃ js : List J, s.queue = js.map .job
  unfinished : s.unfinished = s.queue.length
  unborn : ∀ t, s.born ≤ t → s.threads t = .fresh
  thread : s.own = none ∨ ∃ t, s.own = some t ∧ s.threads t = .looking ∧ s.stopMark = false

theorem settled_new (s₀ : σ) : (new s₀ : Lane σ J).Settled :=
  ⟨⟨[], rfl⟩, rfl, fun _ _ => rfl, .inl rfl⟩

/-! ### The thread on its own -/

/-- One entry takes the thread four steps. -/
theorem run_entry {t : Nat} {e : Entry J} {r : List (Entry J)} (ht : s.threads t = .looking)
    (hmark : s.stopMark = false) (hqueue : s.queue = e :: r) :
    s.run w fails (List.replicate 4 (.work t)) =
      { s with toBook := (Book.execute w fails { s.toBook with queue := r } e).countDown } := by
  have hback : Function.update s.threads t .looking = s.threads := by
    rw [← ht, Function.update_eq_self]
  simp only [List.replicate, run, List.foldl_cons, List.foldl_nil, step, work, ht, hmark, turn,
    Function.update_self, hqueue, Function.update_idem, Bool.false_eq_true, if_false, hback]

variable (w fails) in
/-- The thread comes to the end of the jobs in front of the queue. -/
theorem run_jobs {t : Nat} {js : List J} {rest : List (Entry J)} (ht : s.threads t = .looking)
    (hmark : s.stopMark = false) (hqueue : s.queue = js.map .job ++ rest)
    (hcount : s.unfinished = s.queue.length) :
    ∃ b : Book σ J, s.run w fails (List.replicate (4 * js.length) (.work t)) =
        { s with toBook := b } ∧
      b.state = (Channel.doAll w s.state js).1 ∧
      b.queue = rest ++ (Channel.doAll w s.state js).2.map .job ∧
      b.unfinished = b.queue.length ∧ b.rung = s.rung ∧
      b.executed = s.executed ++ js.map .job := by
  induction js generalizing s rest with
  | nil => exact ⟨s.toBook, rfl, rfl, by simpa [Channel.doAll] using hqueue, hcount, rfl, by simp⟩
  | cons j js ih =>
    let s' : Lane σ J := { s with
      toBook := (Book.execute w fails { s.toBook with queue := js.map .job ++ rest }
        (.job j)).countDown }
    have hfirst : s.run w fails (List.replicate 4 (.work t)) = s' := run_entry ht hmark hqueue
    have hqueue' : s'.queue = js.map .job ++ (rest ++ (w.run j s.state).2.map .job) :=
      List.append_assoc _ _ _
    have hcount' : s'.unfinished = s'.queue.length := by
      show s.unfinished + ((w.run j s.state).2.map Entry.job).length - 1 = _
      rw [hqueue', hcount, hqueue]
      simp only [List.map_cons, List.cons_append, List.length_cons, List.length_append,
        List.length_map]
      omega
    obtain ⟨b, hrun, hstate, hqueueb, hcountb, hrungb, hexecuted⟩ :=
      ih (s := s') ht hmark hqueue' hcount'
    refine ⟨b, ?_, hstate, ?_, hcountb, hrungb, ?_⟩
    · rw [List.length_cons, Nat.mul_succ, Nat.add_comm, ← List.replicate_append_replicate,
        run_append, hfirst]
      exact hrun
    · rw [hqueueb]
      simp [Channel.doAll, s', Book.execute, Book.enqueue, Book.countDown]
    · rw [hexecuted]
      simp [s', Book.execute, Book.enqueue, Book.countDown]

@[simp] theorem place_place (s : Lane σ J) (name : Nat) (c c' : Caller) :
    (s.place name c).place name c' = s.place name c' := by
  simp only [place, Function.update_idem]

theorem caller_place (s : Lane σ J) (name : Nat) (c : Caller) :
    (s.place name c).caller name = c := Function.update_self _ _ _

variable (w fails) in
/-- One who sees that the channel runs puts a bell into the queue and waits for it. -/
theorem run_put (name before : Nat) (why : Errand) (hrunning : s.isRunning = true) :
    (s.place name (.asking why before)).run w fails [.goOn name, .goOn name] =
      (s.enqueue [.bell s.submitted.length]).place name
        (.waiting why before s.submitted.length) := by
  have hsame : (s.place name (.asking why before)).isRunning = true := hrunning
  simp only [run, List.foldl_cons, List.foldl_nil, step, goOn, caller_place, hsame, if_true,
    place_place]
  exact place_place (s.enqueue [.bell s.submitted.length]) name _ _

variable (w fails) in
/-- One who waits for a bell that has rung goes on. -/
theorem run_back (name before : Nat) (why : Errand) {k : Nat} (hrung : k ∈ s.rung) :
    (s.place name (.waiting why before k)).run w fails [.goOn name] =
      s.place name (.back before true why) := by
  have hsame : k ∈ (s.place name (.waiting why before k)).rung := hrung
  simp only [run, List.foldl_cons, List.foldl_nil, step, goOn, caller_place, if_pos hsame,
    place_place]

variable (w fails) in
/-- One who asks for a channel that runs sees the jobs done that are there. -/
theorem exists_run_wait (name before : Nat) (why : Errand) {t : Nat} {js : List J}
    (hown : s.own = some t) (ht : s.threads t = .looking) (hmark : s.stopMark = false)
    (hqueue : s.queue = js.map .job) (hcount : s.unfinished = s.queue.length) :
    ∃ (es : List (Event J)) (b : Book σ J),
      (s.place name (.asking why before)).run w fails es =
        { s with toBook := b }.place name (.back before true why) ∧
      b.state = (Channel.doAll w s.state js).1 ∧
      b.queue = (Channel.doAll w s.state js).2.map .job ∧ b.unfinished = b.queue.length ∧
      ∀ other call, Event.call other call ∉ es := by
  have hrunning : s.isRunning = true := isRunning_iff.mpr ⟨t, hown, by rw [ht]; rfl⟩
  let place := s.submitted.length
  let waiting : Lane σ J :=
    (s.enqueue [.bell place]).place name (.waiting why before place)
  have hqueuew : waiting.queue = js.map .job ++ [.bell place] := by
    show s.queue ++ [.bell place] = _
    rw [hqueue]
  have hcountw : waiting.unfinished = waiting.queue.length := by
    show s.unfinished + 1 = (s.queue ++ [Entry.bell place]).length
    rw [hcount, List.length_append]
    rfl
  -- The jobs are done, the bell rings, and the caller goes on.
  obtain ⟨b, hjobs, hstate, hqueueb, hcountb, -, -⟩ :=
    run_jobs w fails (s := waiting) ht hmark hqueuew hcountw
  let more := (Channel.doAll w s.state js).2
  let rung : Book σ J :=
    (Book.execute w fails { b with queue := more.map .job } (.bell place)).countDown
  have hbell : Lane.run w fails { waiting with toBook := b } (List.replicate 4 (.work t)) =
      { waiting with toBook := rung } := run_entry ht hmark hqueueb
  have hback : Lane.run w fails { waiting with toBook := rung } [.goOn name] =
      { s with toBook := rung }.place name (.back before true why) :=
    run_back w fails name before why (s := { s with toBook := rung })
      (List.mem_append_right _ List.mem_cons_self)
  refine ⟨[.goOn name, .goOn name] ++ (List.replicate (4 * js.length) (.work t) ++
    (List.replicate 4 (.work t) ++ [.goOn name])), rung, ?_, hstate, rfl, ?_, by simp⟩
  · rw [run_append, run_put w fails name before why hrunning, run_append, hjobs, run_append, hbell,
      hback]
  · have hlength : b.unfinished = more.length + 1 := by
      rw [hcountb, hqueueb]
      simp [more, waiting, enqueue, Lane.place, Book.enqueue]
    show b.unfinished - 1 = (more.map Entry.job).length
    rw [hlength, List.length_map]
    rfl

/-! ### Calls -/

theorem queue_channel {js : List J} (h : s.queue = js.map .job) : s.channel.queue = js := by
  show Entry.jobs s.queue = js
  rw [h, Entry.jobs_map_job]

theorem running_channel_of_own_none (h : s.own = none) : s.channel.running = false := by
  simp [channel, isRunning, h]

theorem running_channel_of_looking {t : Nat} (hown : s.own = some t)
    (ht : s.threads t = .looking) : s.channel.running = true := by
  simp [channel, isRunning, hown, ht, Writing.isAlive]

/-- After a run in which nobody but `name` calls, nobody waits, `name` is free, and what is seen of
the lane is `c`. -/
structure Reaches (w : Worker σ J) (fails : J → σ → Bool) (s : Lane σ J) (name : Nat)
    (es : List (Event J)) (c : Channel σ J) : Prop where
  settled : (s.run w fails es).Settled
  free : ((s.run w fails es).caller name).isFree = true
  seen : (s.run w fails es).channel = c
  sole : ∀ other call, Event.call other call ∈ es → other = name

theorem reaches_of_run {s' : Lane σ J} {name : Nat} {es : List (Event J)} {c : Channel σ J}
    (hrun : s.run w fails es = s') (hsettled : s'.Settled) (hfree : (s'.caller name).isFree = true)
    (hseen : s'.channel = c) (hsole : ∀ other call, Event.call other call ∈ es → other = name) :
    s.Reaches w fails name es c :=
  ⟨hrun ▸ hsettled, hrun ▸ hfree, hrun ▸ hseen, hsole⟩

theorem isFree_update {name : Nat} {caller : Nat → Caller} {c : Caller} (hc : c.isFree = true) :
    (Function.update caller name c name).isFree = true := by
  rwa [Function.update_self]

theorem exists_reaches_submit (h : s.Settled) {name : Nat} (hfree : (s.caller name).isFree = true)
    (j : J) : ∃ es, s.Reaches w fails name es (s.channel.submit j) := by
  have hrun : s.run w fails [.call name (.submit j)] = (s.enqueue [.job j]).place name .free := by
    simp [run, step, hfree, begin]
  obtain ⟨⟨js, hqueue⟩, hcount, hunborn, hthread⟩ := h
  refine ⟨_, reaches_of_run hrun ⟨⟨js ++ [j], ?_⟩, ?_, hunborn, hthread⟩ (isFree_update rfl) ?_
    (by simp)⟩
  · show s.queue ++ [.job j] = _
    rw [hqueue, List.map_append]
    rfl
  · show s.unfinished + 1 = (s.queue ++ [Entry.job j]).length
    rw [hcount, List.length_append]
    rfl
  · show Channel.mk s.state (Entry.jobs (s.queue ++ [.job j])) s.isRunning [] = _
    rw [Entry.jobs_append]
    rfl

/-- A lane that is as it was, but for where its caller is. -/
theorem settled_place (h : s.Settled) (name : Nat) (c : Caller) : (s.place name c).Settled :=
  ⟨h.queue, h.unfinished, h.unborn, h.thread⟩

theorem exists_reaches_start (h : s.Settled) {name : Nat} (hfree : (s.caller name).isFree = true) :
    ∃ es, s.Reaches w fails name es s.channel.start := by
  rcases h.thread with hown | ⟨t, hown, ht, hmark⟩
  · let started : Lane σ J :=
      { s with
        own := some s.born
        stopMark := false
        threads := Function.update s.threads s.born .looking
        born := s.born + 1
        caller := Function.update s.caller name .free }
    have hrun : s.run w fails (.call name .start :: List.replicate 4 (.goOn name)) = started := by
      simp [run, List.replicate, step, hfree, begin, goOn, place, isRunning, hown, launch,
        h.unborn s.born (Nat.le_refl _), turn, started]
    have hthread : started.threads s.born = .looking := Function.update_self _ _ _
    refine ⟨_, reaches_of_run hrun ⟨h.queue, h.unfinished, fun u hu => ?_,
      .inr ⟨s.born, rfl, hthread, rfl⟩⟩ (isFree_update rfl) ?_ (by simp)⟩
    · have hu : s.born + 1 ≤ u := hu
      show Function.update s.threads s.born .looking u = .fresh
      rw [Function.update_of_ne (by omega)]
      exact h.unborn u (by omega)
    · show Channel.mk s.state (Entry.jobs s.queue) started.channel.running [] = _
      rw [running_channel_of_looking rfl hthread]
      rfl
  · have hrunning : s.isRunning = true := running_channel_of_looking hown ht
    have hrun : s.run w fails [.call name .start, .goOn name] = s.place name .free := by
      have hsame : Lane.isRunning { s with caller := Function.update s.caller name .starting } =
          true := hrunning
      simp only [run, List.foldl_cons, List.foldl_nil, step, hfree, begin, goOn, place,
        Function.update_self, Function.update_idem, if_true, hsame]
    refine ⟨_, reaches_of_run hrun (settled_place h name .free) (isFree_update rfl) ?_ (by simp)⟩
    show s.channel = s.channel.start
    simp [channel, Channel.start, hrunning]

/-- The thread, if there is one, does the next job. -/
theorem exists_reaches_step (h : s.Settled) {name : Nat} (hfree : (s.caller name).isFree = true) :
    ∃ es, s.Reaches w fails name es (s.channel.step w) := by
  obtain ⟨js, hqueue⟩ := h.queue
  have hjobs := queue_channel hqueue
  have hnothing : s.channel.step w = s.channel →
      ∃ es, s.Reaches w fails name es (s.channel.step w) :=
    fun hsame => ⟨[], h, hfree, hsame.symm, by simp⟩
  rcases h.thread with hown | ⟨t, hown, ht, hmark⟩
  · refine hnothing ?_
    simp [Channel.step, running_channel_of_own_none hown]
  · have hrunning := running_channel_of_looking hown ht
    cases js with
    | nil =>
      refine hnothing ?_
      simp [Channel.step, hjobs]
    | cons j js =>
      obtain ⟨b, hrun, hstate, hqueueb, hcountb, -, -⟩ :=
        run_jobs w fails ht hmark (show s.queue = [j].map .job ++ js.map .job from hqueue)
          h.unfinished
      rw [Channel.step_cons w hrunning hjobs]
      refine ⟨_, reaches_of_run hrun ⟨⟨js ++ (w.run j s.state).2, ?_⟩, hcountb, h.unborn, h.thread⟩
        hfree ?_ (by simp)⟩
      · show b.queue = _
        rw [hqueueb]
        simp [Channel.doAll]
      · show Channel.mk b.state (Entry.jobs b.queue) s.channel.running [] = _
        rw [hstate, hqueueb, hrunning]
        simp [Channel.doAll, channel]

variable (w fails) in
/-- While no thread is there one learns whether there are jobs left. -/
theorem run_weigh (hown : s.own = none) {name : Nat} (hfree : (s.caller name).isFree = true) :
    s.run w fails (.call name .flush :: List.replicate 2 (.goOn name)) =
      s.place name (.flushed s.submitted.length (s.unfinished = 0)) := by
  simp [run, List.replicate, step, hfree, begin, goOn, place, isRunning, hown, Caller.back]

/-- What is seen of a lane whose thread has done the jobs that were there. -/
theorem steps_channel {b : Book σ J} {js : List J} (hrunning : s.channel.running = true)
    (hjobs : s.channel.queue = js) (hstate : b.state = (Channel.doAll w s.state js).1)
    (hqueue : b.queue = (Channel.doAll w s.state js).2.map .job) :
    s.channel.steps w s.channel.queue.length = ⟨b.state, Entry.jobs b.queue, true, []⟩ := by
  have hchannel : s.channel = ⟨s.state, js, true, []⟩ := by rw [← hjobs, ← hrunning]; rfl
  rw [hchannel, Channel.steps_length, hstate, hqueue, Entry.jobs_map_job]

theorem exists_reaches_flush (h : s.Settled) {name : Nat} (hfree : (s.caller name).isFree = true) :
    ∃ es before, s.Reaches w fails name es (s.channel.flush w).2 ∧
      (s.run w fails es).caller name = .flushed before (s.channel.flush w).1 := by
  obtain ⟨js, hqueue⟩ := h.queue
  have hjobs := queue_channel hqueue
  rcases h.thread with hown | ⟨t, hown, ht, hmark⟩
  · have hflush : s.channel.flush w = (decide (s.unfinished = 0), s.channel) := by
      have hempty : s.channel.queue.isEmpty = decide (s.unfinished = 0) := by
        rw [hjobs, h.unfinished, hqueue, List.length_map]
        cases js <;> rfl
      simp [Channel.flush, running_channel_of_own_none hown, hempty]
    have hrun := run_weigh w fails hown hfree
    rw [hflush]
    refine ⟨_, s.submitted.length,
      reaches_of_run hrun (settled_place h name _) (isFree_update rfl) rfl (by simp), ?_⟩
    rw [hrun]
    exact caller_place _ _ _
  · have hrunning := running_channel_of_looking hown ht
    obtain ⟨es, b, hrun, hstate, hqueueb, hcountb, hcalls⟩ :=
      exists_run_wait w fails name s.submitted.length .flush hown ht hmark hqueue h.unfinished
    have hflush : s.channel.flush w = (true, ⟨b.state, Entry.jobs b.queue, true, []⟩) := by
      rw [Channel.flush, if_pos hrunning, steps_channel hrunning hjobs hstate hqueueb]
    have hall : s.run w fails (.call name .flush :: es) =
        { s with toBook := b }.place name (.flushed s.submitted.length true) := by
      have hcall : s.step w fails (.call name .flush) =
          s.place name (.asking .flush s.submitted.length) := by simp [step, hfree, begin]
      show (s.step w fails (.call name .flush)).run w fails es = _
      rw [hcall]
      exact hrun
    have hlater : Settled { s with toBook := b } := ⟨⟨_, hqueueb⟩, hcountb, h.unborn, h.thread⟩
    rw [hflush]
    refine ⟨_, s.submitted.length,
      reaches_of_run hall (settled_place hlater name _) (isFree_update rfl) ?_ ?_, ?_⟩
    · show Channel.mk b.state (Entry.jobs b.queue) s.channel.running [] = _
      rw [hrunning]
    · intro other call hcall
      rcases List.mem_cons.mp hcall with hfirst | hcall
      · cases hfirst
        rfl
      · exact absurd hcall (hcalls other call)
    · rw [hall]
      exact caller_place _ _ _

variable (w fails) in
/-- The stop mark is set, the thread sees it, and the channel has no thread any more. -/
theorem run_mark (name : Nat) {t : Nat} (hown : s.own = some t) (ht : s.threads t = .looking) :
    (s.place name .marking).run w fails
        [.goOn name, .goOn name, .work t, .goOn name, .goOn name, .goOn name] =
      { s with
        own := none
        stopMark := true
        threads := Function.update s.threads t .ended
        caller := Function.update s.caller name .free } := by
  simp [run, step, goOn, place, join, work, turn, hown, ht]

theorem exists_reaches_stop (h : s.Settled) {name : Nat} (hfree : (s.caller name).isFree = true) :
    ∃ es, s.Reaches w fails name es (s.channel.stopInTime w) := by
  obtain ⟨js, hqueue⟩ := h.queue
  have hjobs := queue_channel hqueue
  rcases h.thread with hown | ⟨t, hown, ht, hmark⟩
  · have hrun : s.run w fails [.call name .stop, .goOn name] = s.place name .free := by
      simp [run, step, hfree, begin, goOn, place, hown]
    refine ⟨_, reaches_of_run hrun (settled_place h name .free) (isFree_update rfl) ?_ (by simp)⟩
    show s.channel = _
    simp [Channel.stopInTime, Channel.stop, running_channel_of_own_none hown]
  · have hrunning := running_channel_of_looking hown ht
    obtain ⟨es, b, hrun, hstate, hqueueb, hcountb, hcalls⟩ :=
      exists_run_wait w fails name s.submitted.length .stop hown ht hmark hqueue h.unfinished
    have hstop : s.channel.stopInTime w = ⟨b.state, Entry.jobs b.queue, false, []⟩ := by
      rw [Channel.stopInTime_of_running w hrunning,
        steps_channel hrunning hjobs hstate hqueueb]
    have hask : s.run w fails [.call name .stop, .goOn name] =
        s.place name (.asking .stop s.submitted.length) := by
      simp [run, step, hfree, begin, goOn, place, hown]
    let later : Lane σ J := { s with toBook := b }
    have hend := run_mark w fails (s := later) name hown ht
    have hall : s.run w fails ([.call name .stop, .goOn name] ++ (es ++
        [.goOn name, .goOn name, .work t, .goOn name, .goOn name, .goOn name])) =
        { later with
          own := none
          stopMark := true
          threads := Function.update s.threads t .ended
          caller := Function.update s.caller name .free } := by
      rw [run_append, hask, run_append, hrun]
      exact hend
    rw [hstop]
    refine ⟨_, reaches_of_run hall ⟨⟨_, hqueueb⟩, hcountb, fun u hu => ?_, .inl rfl⟩
      (isFree_update rfl) rfl ?_⟩
    · have hne : u ≠ t := by
        rintro rfl
        have hfresh := h.unborn u hu
        rw [ht] at hfresh
        cases hfresh
      show Function.update s.threads t .ended u = .fresh
      rw [Function.update_of_ne hne]
      exact h.unborn u hu
    · intro other call hcall
      simp only [List.mem_append, List.mem_cons, Event.call.injEq, reduceCtorEq, List.not_mem_nil,
        or_false, hcalls other call] at hcall
      exact hcall.1

/-- Whatever one does with a channel who calls on it and waits is a run of the lane. -/
theorem exists_reaches_use (h : s.Settled) {name : Nat} (hfree : (s.caller name).isFree = true)
    (u : Channel.Use J) :
    ∃ es, s.Reaches w fails name es (s.channel.use w u).2 ∧
      ∀ a ∈ (s.channel.use w u).1, ∃ before,
        (s.run w fails es).caller name = .flushed before a := by
  cases u with
  | submit j =>
    obtain ⟨es, hes⟩ := exists_reaches_submit h hfree j
    exact ⟨es, hes, by simp [Channel.use]⟩
  | start =>
    obtain ⟨es, hes⟩ := exists_reaches_start h hfree
    exact ⟨es, hes, by simp [Channel.use]⟩
  | stop =>
    obtain ⟨es, hes⟩ := exists_reaches_stop h hfree
    exact ⟨es, hes, by simp [Channel.use]⟩
  | flush =>
    obtain ⟨es, before, hes, hcaller⟩ := exists_reaches_flush h hfree
    refine ⟨es, hes, fun a ha => ⟨before, ?_⟩⟩
    rw [hcaller, ← Option.some.inj ha]
  | work =>
    obtain ⟨es, hes⟩ := exists_reaches_step h hfree
    exact ⟨es, hes, by simp [Channel.use]⟩

end Lane

end Notebook
