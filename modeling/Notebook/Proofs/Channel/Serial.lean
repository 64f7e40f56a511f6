import Notebook.Proofs.Channel.Steering

/-!
# Starts and stops that do not overlap

If whoever starts or stops a channel does it while nobody else is about to, there is one writer at
any time, and nobody is about to stop a channel that runs.  So it is when all starts and stops are
one caller's.
-/

namespace Notebook

/-- Has the caller told the thread to stop and not seen it stop yet? -/
def Caller.isJoining : Caller → Bool
  | .joining | .awaiting _ => true
  | _ => false

theorem Caller.isSteering_of_isJoining {c : Caller} (h : c.isJoining = true) :
    c.isSteering = true := by
  cases c with
  | joining | awaiting => rfl
  | _ => cases h

def Call.isSteering {J : Type} : Call J → Bool
  | .start | .stop => true
  | _ => false

/-- What one who starts or stops a channel knows of its thread. -/
def Caller.Keeps {σ J : Type} (s : Lane σ J) : Caller → Prop
  | .unmarking | .checking | .dropping => s.Stopped
  | .creating | .launching => s.Stopped ∧ s.stopMark = false
  | .awaiting t => s.own = some t
  | _ => True

theorem Caller.keeps_of_not_steering {σ J : Type} {c : Caller} (h : c.isSteering = false)
    (s : Lane σ J) : c.Keeps s := by
  cases c with
  | unmarking | creating | launching | awaiting | checking | dropping => cases h
  | _ => trivial

theorem Caller.isSteering_of_isFree {c : Caller} (h : c.isFree = true) : c.isSteering = false := by
  cases c with
  | free | flushed | failed => rfl
  | _ => cases h

/-- The caller is in the middle of a flush, or back from one, that it began when `n` entries were
submitted. -/
def Caller.Flushing (n : Nat) : Caller → Prop
  | .asking .flush before | .putting .flush before | .waiting .flush before _
  | .weighing .flush before | .flushed before _ => before = n
  | _ => False

theorem Caller.Flushing.not_steering {n : Nat} {c : Caller} (h : c.Flushing n) :
    c.isSteering = false := by
  cases c with
  | asking why | putting why | weighing why | waiting why =>
    cases why with
    | flush => rfl
    | stop => exact h.elim
  | flushed => rfl
  | _ => exact h.elim

namespace Lane

variable {σ J : Type} {w : Worker σ J} {fails : J → σ → Bool} {s : Lane σ J}

/-- Whoever starts or stops the channel does it while nobody else is about to. -/
def SerialAlong (w : Worker σ J) (fails : J → σ → Bool) (s : Lane σ J) (es : List (Event J)) :
    Prop :=
  ∀ past name c, past ++ [.call name c] <+: es → c.isSteering = true →
    ((s.run w fails past).caller name).isFree = true →
      ∀ other, ((s.run w fails past).caller other).isSteering = false

theorem SerialAlong.of_prefix {es es' : List (Event J)} (h : s.SerialAlong w fails es')
    (hes : es <+: es') : s.SerialAlong w fails es :=
  fun past name c hpast => h past name c (hpast.trans hes)

/-- What holds as long as starts and stops do not overlap. -/
structure Steered (s : Lane σ J) : Prop where
  one : ∀ a b, (s.caller a).isSteering = true → (s.caller b).isSteering = true → a = b
  own : ∀ t, (s.threads t).isAlive = true → s.own = some t
  marked : s.stopMark = true → s.Stopped ∨ ∃ name, (s.caller name).isJoining = true
  keeps : ∀ name, (s.caller name).Keeps s

theorem Steered.oneWriter (h : s.Steered) : s.OneWriter := by
  intro t u ht hu
  exact Option.some.inj ((h.own t ht).symm.trans (h.own u hu))

/-- If the channel's own thread is not alive, no thread is. -/
theorem Steered.stopped (h : s.Steered) (hrunning : s.isRunning = false) : s.Stopped := by
  intro t
  by_contra halive
  have halive : (s.threads t).isAlive = true := by simpa using halive
  simp [isRunning, h.own t halive, halive] at hrunning

theorem not_stopped_of_isRunning (hrunning : s.isRunning = true) : ¬ s.Stopped := by
  intro hstopped
  obtain ⟨t, -, halive⟩ := isRunning_iff.mp hrunning
  rw [hstopped t] at halive
  cases halive

/-- A channel that runs while nobody is about to start or stop it runs undisturbed. -/
theorem Steered.undisturbed (h : s.Steered) (hrunning : s.isRunning = true)
    (hnobody : ∀ name, (s.caller name).isSteering = false) : s.Undisturbed where
  running := hrunning
  unmarked := by
    by_contra hmark
    rcases h.marked (by simpa using hmark) with hstopped | ⟨name, hjoining⟩
    · exact not_stopped_of_isRunning hrunning hstopped
    · have hsteering := hnobody name
      rw [Caller.isSteering_of_isJoining hjoining] at hsteering
      cases hsteering
  nobody := hnobody

/-- One who starts or stops the channel takes a step; nobody else does. -/
theorem Steered.steer (h : s.Steered) {name : Nat} {c₀ : Caller} (hname : s.caller name = c₀)
    (hsteering : c₀.isSteering = true) {s' : Lane σ J} {c : Caller}
    (hcaller : s'.caller = Function.update s.caller name c)
    (hown : ∀ t, (s'.threads t).isAlive = true → s'.own = some t)
    (hmarked : s'.stopMark = true → s'.Stopped ∨ c.isJoining = true) (hkeeps : c.Keeps s') :
    s'.Steered where
  one a b ha hb := by
    rw [hcaller] at ha hb
    have hat : ∀ a, (Function.update s.caller name c a).isSteering = true → a = name := by
      intro a ha
      by_contra hne
      rw [Function.update_of_ne hne] at ha
      exact hne (h.one a name ha (hname ▸ hsteering))
    rw [hat a ha, hat b hb]
  own := hown
  marked hmark := by
    refine (hmarked hmark).imp id fun hjoining => ⟨name, ?_⟩
    rw [hcaller, Function.update_self]
    exact hjoining
  keeps other := by
    rw [hcaller]
    by_cases hother : other = name
    · rw [hother, Function.update_self]
      exact hkeeps
    · rw [Function.update_of_ne hother]
      refine Caller.keeps_of_not_steering ?_ s'
      by_contra hboth
      exact hother (h.one other name (by simpa using hboth) (hname ▸ hsteering))

/-- Somebody moves who does not start or stop the channel, or who begins to when nobody else
does. -/
theorem Steered.place (h : s.Steered) {name : Nat} {c₀ : Caller} (hname : s.caller name = c₀)
    (hnot : c₀.isSteering = false) {c : Caller} (hkeeps : c.Keeps s)
    (hc : c.isSteering = true → ∀ other, (s.caller other).isSteering = false) :
    (s.place name c).Steered where
  one a b ha hb := by
    have ha : (Function.update s.caller name c a).isSteering = true := ha
    have hb : (Function.update s.caller name c b).isSteering = true := hb
    cases hsteering : c.isSteering with
    | true =>
      have hat : ∀ a, (Function.update s.caller name c a).isSteering = true → a = name := by
        intro a ha
        by_contra hne
        rw [Function.update_of_ne hne, hc hsteering a] at ha
        cases ha
      rw [hat a ha, hat b hb]
    | false =>
      have hat : ∀ a, (Function.update s.caller name c a).isSteering = true →
          (s.caller a).isSteering = true := by
        intro a ha
        by_cases hne : a = name
        · rw [hne, Function.update_self, hsteering] at ha
          cases ha
        · rwa [Function.update_of_ne hne] at ha
      exact h.one a b (hat a ha) (hat b hb)
  own := h.own
  marked hmark := by
    refine (h.marked hmark).imp id fun ⟨other, hjoining⟩ => ⟨other, ?_⟩
    have hne : other ≠ name := by
      rintro rfl
      rw [← hname, Caller.isSteering_of_isJoining hjoining] at hnot
      cases hnot
    show (Function.update s.caller name c other).isJoining = true
    rwa [Function.update_of_ne hne]
  keeps other := by
    show (Function.update s.caller name c other).Keeps (s.place name c)
    by_cases hother : other = name
    · rw [hother, Function.update_self]
      exact hkeeps
    · rw [Function.update_of_ne hother]
      exact h.keeps other

theorem Steered.enqueue (h : s.Steered) (es : List (Entry J)) : (s.enqueue es).Steered :=
  ⟨h.one, h.own, h.marked, h.keeps⟩

theorem Steered.call (h : s.Steered) {name : Nat} (hfree : (s.caller name).isFree = true)
    {c : Call J}
    (hc : c.isSteering = true → ∀ other, (s.caller other).isSteering = false) :
    (s.begin name c).Steered := by
  have hnot := Caller.isSteering_of_isFree hfree
  cases c with
  | submit j => exact (h.enqueue [.job j]).place rfl hnot trivial (fun hfalse => by cases hfalse)
  | start => exact h.place rfl hnot trivial fun _ => hc rfl
  | stop => exact h.place rfl hnot trivial fun _ => hc rfl
  | flush => exact h.place rfl hnot trivial (fun hfalse => by cases hfalse)

/-- The stop mark of a thread that is alive is somebody's who waits for its end. -/
theorem Steered.stopped_of_marked (h : s.Steered) {name : Nat}
    (hname : (s.caller name).isSteering = true) (hjoining : (s.caller name).isJoining = false)
    (hmark : s.stopMark = true) : s.Stopped := by
  refine (h.marked hmark).elim id fun ⟨other, hother⟩ => ?_
  rw [h.one other name (Caller.isSteering_of_isJoining hother) hname, hjoining] at hother
  cases hother

/-- One who starts or stops the channel goes on, and nothing else changes. -/
theorem Steered.move (h : s.Steered) {name : Nat} {c₀ : Caller} (hname : s.caller name = c₀)
    (hsteering : c₀.isSteering = true) (hjoining : c₀.isJoining = false) {c : Caller}
    (hkeeps : c.Keeps s) : (s.place name c).Steered := by
  refine h.steer hname hsteering rfl h.own (fun hmark => .inl ?_) hkeeps
  exact h.stopped_of_marked (hname ▸ hsteering) (hname ▸ hjoining) hmark

theorem Steered.launch (h : s.Steered) {name : Nat} (hname : s.caller name = .launching) :
    (s.launch name).Steered := by
  have hkeeps := h.keeps name
  rw [hname] at hkeeps
  obtain ⟨hstopped, hmark⟩ := hkeeps
  cases hown : s.own with
  | none =>
    simp only [Lane.launch, hown]
    exact h.move hname rfl rfl trivial
  | some t =>
    cases hthread : s.threads t with
    | fresh =>
      simp only [Lane.launch, hown, hthread]
      refine h.steer hname rfl rfl (fun u hu => ?_) (fun hmarked => ?_) trivial
      · have hu : (Function.update s.threads t .looking u).isAlive = true := hu
        by_cases hut : u = t
        · rw [hut]
          exact hown
        · rw [Function.update_of_ne hut, hstopped u] at hu
          cases hu
      · have hmarked : s.stopMark = true := hmarked
        rw [hmark] at hmarked
        cases hmarked
    | looking | taking | holding | counting | ended =>
      simp only [Lane.launch, hown, hthread]
      exact h.move hname rfl rfl trivial

theorem Steered.join (h : s.Steered) {name : Nat} (hname : s.caller name = .joining) :
    (s.join name).Steered := by
  cases hown : s.own with
  | none =>
    have hstopped : s.Stopped := h.stopped (by simp [isRunning, hown])
    simp only [Lane.join, hown]
    exact h.steer hname rfl rfl h.own (fun _ => .inl hstopped) trivial
  | some t =>
    cases hthread : s.threads t with
    | fresh =>
      have hstopped : s.Stopped := h.stopped (by simp [isRunning, hown, hthread, Writing.isAlive])
      simp only [Lane.join, hown, hthread]
      exact h.steer hname rfl rfl h.own (fun _ => .inl hstopped) trivial
    | looking | taking | holding | counting | ended =>
      simp only [Lane.join, hown, hthread]
      exact h.steer hname rfl rfl h.own (fun _ => .inr rfl) hown

theorem Steered.goOn (h : s.Steered) (name : Nat) : (s.goOn name).Steered := by
  have hkeeps := h.keeps name
  have hput := h.enqueue [.bell s.submitted.length]
  unfold Lane.goOn
  cases hname : s.caller name with
  | free | flushed | failed => exact h
  | starting =>
    cases hrunning : s.isRunning with
    | true => exact h.move hname rfl rfl trivial
    | false => exact h.move hname rfl rfl (h.stopped hrunning)
  | unmarking =>
    rw [hname] at hkeeps
    exact h.steer hname rfl rfl h.own (fun hmark => by cases hmark) ⟨hkeeps, rfl⟩
  | creating =>
    rw [hname] at hkeeps
    refine h.steer hname rfl rfl (fun t ht => ?_) (fun _ => .inl hkeeps.1) hkeeps
    have ht : (s.threads t).isAlive = true := ht
    rw [hkeeps.1 t] at ht
    cases ht
  | launching => exact h.launch hname
  | stopping before =>
    simp only
    split <;> exact h.move hname rfl rfl trivial
  | asking why before =>
    cases why with
    | flush =>
      simp only
      split <;> exact h.place hname rfl trivial fun hfalse => by cases hfalse
    | stop =>
      simp only
      split <;> exact h.move hname rfl rfl trivial
  | putting why before =>
    have hcaller : (s.enqueue [.bell s.submitted.length]).caller name = .putting why before := hname
    cases why with
    | flush => exact hput.place hcaller rfl trivial fun hfalse => by cases hfalse
    | stop => exact hput.move hcaller rfl rfl trivial
  | waiting why before place =>
    simp only
    split
    · cases why with
      | flush => exact h.place hname rfl trivial fun hfalse => by cases hfalse
      | stop => exact h.move hname rfl rfl trivial
    · exact h
  | weighing why before =>
    cases why with
    | flush => exact h.place hname rfl trivial fun hfalse => by cases hfalse
    | stop => exact h.move hname rfl rfl trivial
  | marking => exact h.steer hname rfl rfl h.own (fun _ => .inr rfl) trivial
  | joining => exact h.join hname
  | awaiting t =>
    rw [hname] at hkeeps
    simp only
    split
    · next hended =>
      have hstopped : s.Stopped := by
        have hown : s.own = some t := hkeeps
        exact h.stopped (by simp [isRunning, hown, hended, Writing.isAlive])
      exact h.steer hname rfl rfl h.own (fun _ => .inl hstopped) hstopped
    · exact h
  | checking =>
    rw [hname] at hkeeps
    simp only
    split
    · exact h.move hname rfl rfl hkeeps
    · exact h.move hname rfl rfl trivial
  | dropping =>
    rw [hname] at hkeeps
    refine h.steer hname rfl rfl (fun t ht => ?_) (fun _ => .inl hkeeps) trivial
    have ht : (s.threads t).isAlive = true := ht
    rw [hkeeps t] at ht
    cases ht

/-- No thread comes to life by its own work. -/
theorem isAlive_of_work {t u : Nat} (h : ((s.work w fails t).threads u).isAlive = true) :
    (s.threads u).isAlive = true := by
  have hturn : ∀ v : Writing J, (s.threads t).isAlive = true →
      (Function.update s.threads t v u).isAlive = true → (s.threads u).isAlive = true := by
    intro v ht hv
    by_cases hu : u = t
    · rw [hu]
      exact ht
    · rwa [Function.update_of_ne hu] at hv
  unfold work at h
  cases ht : s.threads t with
  | fresh | ended =>
    rw [ht] at h
    exact h
  | looking | counting =>
    rw [ht] at h
    exact hturn _ (by rw [ht]; rfl) h
  | taking =>
    simp only [ht] at h
    split at h <;> exact hturn _ (by rw [ht]; rfl) h
  | holding e =>
    rw [ht] at h
    cases e <;> exact hturn _ (by rw [ht]; rfl) h

theorem Stopped.work (h : s.Stopped) (t : Nat) : (s.work w fails t).Stopped := by
  intro u
  by_contra halive
  have halive := isAlive_of_work (by simpa using halive)
  rw [h u] at halive
  cases halive

theorem Steered.work (h : s.Steered) (t : Nat) : (s.work w fails t).Steered := by
  obtain ⟨hown, hmark, -, hcaller⟩ := frame_work w fails s t
  refine ⟨hcaller ▸ h.one, fun u hu => hown ▸ h.own u (isAlive_of_work hu), fun hmarked => ?_,
    fun name => ?_⟩
  · rw [hcaller]
    exact (h.marked (hmark ▸ hmarked)).imp (·.work t) id
  · have hkeeps := h.keeps name
    rw [hcaller]
    cases hc : s.caller name with
    | unmarking | checking | dropping =>
      rw [hc] at hkeeps
      exact Stopped.work hkeeps t
    | creating | launching =>
      rw [hc] at hkeeps
      exact ⟨hkeeps.1.work t, hmark.trans hkeeps.2⟩
    | awaiting u =>
      rw [hc] at hkeeps
      exact hown.trans hkeeps
    | _ => trivial

theorem steered_new (s₀ : σ) : (new s₀ : Lane σ J).Steered where
  one a b ha := by cases ha
  own t ht := by cases ht
  marked hmark := by cases hmark
  keeps name := trivial

theorem Steered.run (h : s.Steered) {es : List (Event J)} (hserial : s.SerialAlong w fails es) :
    (s.run w fails es).Steered := by
  induction es using List.reverseRecOn with
  | nil => exact h
  | append_singleton es e ih =>
    have hpast := ih (hserial.of_prefix (List.prefix_append _ _))
    rw [run_concat]
    cases e with
    | call name c =>
      simp only [step]
      split
      · next hfree => exact hpast.call hfree fun hc => hserial es name c List.prefix_rfl hc hfree
      · exact hpast
    | goOn name => exact hpast.goOn name
    | work t => exact hpast.work t

/-- If starts and stops do not overlap, no two threads are ever alive. -/
theorem SerialAlong.oneWriterAlong {s₀ : σ} {es : List (Event J)}
    (h : (new s₀).SerialAlong w fails es) : (new s₀).OneWriterAlong w fails es := by
  intro past hpast
  exact ((steered_new s₀).run (h.of_prefix hpast)).oneWriter

/-! ### One owner -/

theorem caller_goOn_of_ne {name other : Nat} (hne : name ≠ other) (s : Lane σ J) :
    (s.goOn other).caller name = s.caller name := by
  have hsame : ∀ c, Function.update s.caller other c name = s.caller name :=
    fun c => Function.update_of_ne hne _ _
  unfold Lane.goOn
  cases s.caller other with
  | launching =>
    simp only [Lane.launch]
    split
    · exact hsame _
    · split <;> exact hsame _
  | joining =>
    simp only [Lane.join]
    split
    · exact hsame _
    · split <;> exact hsame _
  | waiting | awaiting =>
    simp only
    split
    · exact hsame _
    · rfl
  | free | flushed | failed => rfl
  | _ => exact hsame _

/-- One in the middle of a flush stays there or comes back from it. -/
theorem flush_goOn {name : Nat} (h : (s.caller name).isSteering = false) :
    ((s.goOn name).caller name).isSteering = false ∧
      ∀ n, (s.caller name).Flushing n → ((s.goOn name).caller name).Flushing n := by
  have hplaced : ∀ {c₀ c : Caller}, c.isSteering = false → (∀ n, c₀.Flushing n → c.Flushing n) →
      (Function.update s.caller name c name).isSteering = false ∧
        ∀ n, c₀.Flushing n → (Function.update s.caller name c name).Flushing n := by
    intro c₀ c hc hflushing
    rw [Function.update_self]
    exact ⟨hc, hflushing⟩
  unfold Lane.goOn
  cases hname : s.caller name with
  | free | flushed | failed =>
    simp only [hname]
    exact ⟨rfl, fun n => id⟩
  | asking why =>
    rw [hname] at h
    cases why with
    | stop => cases h
    | flush =>
      simp only
      split <;> exact hplaced rfl fun n => id
  | putting why | weighing why =>
    rw [hname] at h
    cases why with
    | stop => cases h
    | flush => exact hplaced rfl fun n => id
  | waiting why before place =>
    rw [hname] at h
    cases why with
    | stop => cases h
    | flush =>
      simp only
      split
      · exact hplaced rfl fun n => id
      · rw [hname]
        exact ⟨rfl, fun n => id⟩
  | _ =>
    rw [hname] at h
    cases h

theorem isSteering_goOn {name : Nat} (h : (s.caller name).isSteering = false) (other : Nat) :
    ((s.goOn other).caller name).isSteering = false := by
  by_cases hne : name = other
  · subst hne
    exact (flush_goOn h).1
  · rwa [caller_goOn_of_ne hne]

theorem isSteering_call {name other : Nat} {c : Call J}
    (h : (s.caller name).isSteering = false) (hc : name = other → c.isSteering = false) :
    ((s.step w fails (.call other c)).caller name).isSteering = false := by
  have hplaced : ∀ c' : Caller, (name = other → c'.isSteering = false) →
      (Function.update s.caller other c' name).isSteering = false := by
    intro c' hc'
    by_cases hname : name = other
    · rw [hname, Function.update_self]
      exact hc' hname
    · rwa [Function.update_of_ne hname]
  simp only [step]
  split
  · cases c with
    | submit j => exact hplaced _ fun _ => rfl
    | start | stop => exact hplaced _ fun hname => by cases hc hname
    | flush => exact hplaced _ fun _ => rfl
  · exact h

/-- Starts and stops do not overlap if they are all one caller's. -/
theorem serialAlong_of_sole {s₀ : σ} {es : List (Event J)} (owner : Nat)
    (h : ∀ name c, Event.call name c ∈ es → c.isSteering = true → name = owner) :
    (new s₀).SerialAlong w fails es := by
  have hothers : ∀ past, past <+: es → ∀ name, name ≠ owner →
      (((new s₀).run w fails past).caller name).isSteering = false := by
    intro past hpast name hname
    induction past using List.reverseRecOn with
    | nil => rfl
    | append_singleton past e ih =>
      have hsteering := ih ((List.prefix_append _ _).trans hpast)
      rw [run_concat]
      cases e with
      | call other c =>
        refine isSteering_call hsteering ?_
        by_contra hboth
        obtain ⟨rfl, hc⟩ : name = other ∧ c.isSteering = true := by simpa using hboth
        exact hname (h name c (hpast.subset (by simp)) hc)
      | goOn other => exact isSteering_goOn hsteering other
      | work t =>
        obtain ⟨-, -, -, hcaller⟩ := frame_work w fails ((new s₀).run w fails past) t
        show Caller.isSteering (Lane.caller (((new s₀).run w fails past).work w fails t) name) = _
        rw [hcaller]
        exact hsteering
  intro past name c hpast hc hfree other
  have hmem : Event.call name c ∈ es := hpast.subset (by simp)
  have howner := h name c hmem hc
  by_cases hother : other = owner
  · rw [hother, ← howner]
    exact Caller.isSteering_of_isFree hfree
  · exact hothers past ((List.prefix_append _ _).trans hpast) other hother

/-! ### One thread -/

/-- Nobody but the first thread was ever started. -/
def Lone (s : Lane σ J) : Prop := ∀ t, t ≠ 0 → s.threads t = .fresh

theorem Lone.oneWriter (h : s.Lone) : s.OneWriter := by
  have hfirst : ∀ t, (s.threads t).isAlive = true → t = 0 := by
    intro t halive
    by_contra hne
    rw [h t hne] at halive
    cases halive
  intro t u ht hu
  rw [hfirst t ht, hfirst u hu]

theorem Lone.turn (h : s.Lone) (wr : Writing J) : (s.turn 0 wr).Lone := by
  intro t hne
  show Function.update s.threads 0 wr t = .fresh
  rw [Function.update_of_ne hne, h t hne]

theorem Lone.step (h : s.Lone) (hown : s.own = none ∨ s.own = some 0) (e : Event J) :
    (s.step w fails e).Lone := by
  cases e with
  | call name c =>
    simp only [Lane.step]
    split
    · cases c <;> exact h
    · exact h
  | goOn name =>
    show (s.goOn name).Lone
    unfold goOn
    cases s.caller name with
    | launching =>
      simp only [launch]
      rcases hown with hown | hown
      · rw [hown]
        exact h
      · rw [hown]
        simp only
        split
        · exact h.turn .looking
        · exact h
    | joining =>
      simp only [join]
      split
      · exact h
      · split <;> exact h
    | waiting | awaiting =>
      simp only
      split <;> exact h
    | _ => exact h
  | work t =>
    show (s.work w fails t).Lone
    by_cases hfirst : t = 0
    · subst hfirst
      unfold work
      split
      case h_4 => split <;> exact h.turn _
      all_goals first | exact h | exact h.turn _
    · unfold work
      rw [h t hfirst]
      exact h

/-- There is one writer as long as no second thread becomes the channel's own. -/
theorem oneWriterAlong_of_own {s₀ : σ} {es : List (Event J)}
    (h : ∀ n < es.length, ((new s₀).run w fails (es.take n)).own = none ∨
      ((new s₀).run w fails (es.take n)).own = some 0) : (new s₀).OneWriterAlong w fails es := by
  have hlone : ∀ n ≤ es.length, ((new s₀).run w fails (es.take n)).Lone := by
    intro n
    induction n with
    | zero => exact fun _ t _ => rfl
    | succ n ih =>
      intro hn
      rw [List.take_succ_eq_append_getElem hn, run_concat]
      exact (ih (Nat.le_of_lt hn)).step (h n hn) _
  intro past hpast
  rw [List.prefix_iff_eq_take.mp hpast]
  exact (hlone _ hpast.length_le).oneWriter

end Lane

end Notebook
