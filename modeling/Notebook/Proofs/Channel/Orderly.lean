import Mathlib.Data.List.Induction
import Notebook.Proofs.Channel.Lane

/-!
# One writer, first in, first out

As long as no two threads are alive, whatever callers do in the middle of one another's calls: what
is done is the beginning of what was submitted, what is left is at hand or in the queue, and one who
has waited for the channel has seen all done that was there before.
-/

namespace Notebook

variable {σ J : Type}

/-! ### Entries -/

namespace Entry

@[simp] theorem jobs_append (es es' : List (Entry J)) : jobs (es ++ es') = jobs es ++ jobs es' := by
  simp [jobs]

@[simp] theorem jobs_job (j : J) : jobs [.job j] = [j] := rfl

@[simp] theorem jobs_bell (k : Nat) : jobs [(.bell k : Entry J)] = [] := rfl

@[simp] theorem jobs_map_job (js : List J) : jobs (js.map .job) = js := by
  simp [jobs, job?, List.filterMap_map, Function.comp_def]

theorem getElem?_of_prefix {es es' : List (Entry J)} (h : es <+: es') {i : Nat} {e : Entry J}
    (he : es[i]? = some e) : es'[i]? = some e := by
  obtain ⟨more, rfl⟩ := h
  obtain ⟨hi, -⟩ := List.getElem?_eq_some_iff.mp he
  rwa [List.getElem?_append_left hi]

theorem getElem?_concat {es : List (Entry J)} {e e' : Entry J} {i : Nat}
    (h : (es ++ [e])[i]? = some e') : es[i]? = some e' ∨ i = es.length ∧ e' = e := by
  rcases Nat.lt_or_ge i es.length with hi | hi
  · rw [List.getElem?_append_left hi] at h
    exact .inl h
  · rw [List.getElem?_append_right hi] at h
    obtain ⟨hlt, rfl⟩ := List.getElem?_eq_some_iff.mp h
    rw [List.length_singleton] at hlt
    exact .inr ⟨by omega, List.getElem_singleton hlt⟩

/-- Jobs that are appended bring no bell. -/
theorem getElem?_append_jobs {es : List (Entry J)} {js : List J} {i k : Nat}
    (h : (es ++ js.map .job)[i]? = some (.bell k)) : es[i]? = some (.bell k) := by
  rcases Nat.lt_or_ge i es.length with hi | hi
  · rwa [List.getElem?_append_left hi] at h
  · rw [List.getElem?_append_right hi, List.getElem?_map] at h
    obtain ⟨j, -, hj⟩ := Option.map_eq_some_iff.mp h
    cases hj

end Entry

/-- What a caller keeps in mind agrees with the book. -/
def Caller.Fits (b : Book σ J) : Caller → Prop
  | .flushed before answer =>
    before ≤ b.submitted.length ∧ (answer = true → before ≤ b.executed.length)
  | .waiting _ before place => before ≤ place ∧ b.submitted[place]? = some (.bell place)
  | .stopping before | .asking _ before | .putting _ before | .weighing _ before =>
    before ≤ b.submitted.length
  | _ => True

namespace Book

/-- The book agrees with what the thread `t` holds, and no other thread is alive. -/
structure Balanced (b : Book σ J) (threads : Nat → Writing J) (t : Nat) : Prop where
  alone : ∀ u, (threads u).isAlive = true → u = t
  fifo : b.submitted = b.executed ++ (threads t).held ++ b.queue
  count : b.unfinished = b.queue.length + (threads t).owing

theorem Balanced.executed_prefix {b : Book σ J} {threads : Nat → Writing J} {t : Nat}
    (h : b.Balanced threads t) : b.executed <+: b.submitted :=
  ⟨(threads t).held ++ b.queue, by rw [h.fifo, List.append_assoc]⟩

/-- If nothing is unfinished, all that was submitted is done. -/
theorem Balanced.executed_eq {b : Book σ J} {threads : Nat → Writing J} {t : Nat}
    (h : b.Balanced threads t) (hnone : b.unfinished = 0) : b.executed = b.submitted := by
  obtain ⟨hqueue, howing⟩ := Nat.add_eq_zero_iff.mp (h.count ▸ hnone)
  rw [h.fifo, Writing.held_of_owing_eq_zero howing, List.length_eq_zero_iff.mp hqueue,
    List.append_nil, List.append_nil]

/-- The book of a channel goes on: nothing that it says of the past is changed. -/
structure Grows (b b' : Book σ J) : Prop where
  submitted : b.submitted <+: b'.submitted
  executed : b.executed <+: b'.executed

namespace Grows

variable {b b' b'' : Book σ J}

theorem refl (b : Book σ J) : b.Grows b := ⟨List.prefix_rfl, List.prefix_rfl⟩

theorem trans (h : b.Grows b') (h' : b'.Grows b'') : b.Grows b'' :=
  ⟨h.submitted.trans h'.submitted, h.executed.trans h'.executed⟩

theorem enqueue (b : Book σ J) (es : List (Entry J)) : b.Grows (b.enqueue es) :=
  ⟨List.prefix_append _ _, List.prefix_rfl⟩

theorem fits (h : b.Grows b') {c : Caller} (hc : c.Fits b) : c.Fits b' := by
  have hsubmitted := h.submitted.length_le
  have hexecuted := h.executed.length_le
  cases c with
  | flushed before answer =>
    exact ⟨Nat.le_trans hc.1 hsubmitted, fun ha => Nat.le_trans (hc.2 ha) hexecuted⟩
  | waiting why before place => exact ⟨hc.1, Entry.getElem?_of_prefix h.submitted hc.2⟩
  | stopping | asking | putting | weighing => exact Nat.le_trans hc hsubmitted
  | _ => trivial

end Grows

end Book

namespace Lane

variable {w : Worker σ J} {fails : J → σ → Bool} {s₀ : σ} {s : Lane σ J}

/-! ### What every step keeps -/

/-- The state when jobs have been done one after the other. -/
def inTurn (w : Worker σ J) (s : σ) (js : List J) : σ := js.foldl (fun s j => (w.run j s).1) s

structure Orderly (w : Worker σ J) (s₀ : σ) (s : Lane σ J) : Prop where
  balanced : ∃ t, s.toBook.Balanced s.threads t
  /-- A bell stands at its own place. -/
  bells : ∀ i k, s.submitted[i]? = some (Entry.bell k) → k = i
  rung : ∀ k, k ∈ s.rung ↔ s.executed[k]? = some (Entry.bell k)
  callers : ∀ name, (s.caller name).Fits s.toBook
  /-- Somebody waits for a bell that has not rung. -/
  awaited : ∀ k, s.executed.length ≤ k → s.submitted[k]? = some (Entry.bell k) →
    ∃ name why before, s.caller name = .waiting why before k
  state : s.state = inTurn w s₀ (Entry.jobs s.executed)

theorem orderly_new (w : Worker σ J) (s₀ : σ) : (new s₀ : Lane σ J).Orderly w s₀ where
  balanced := ⟨0, by simp [new, Writing.isAlive], rfl, rfl⟩
  bells i k h := by simp [new] at h
  rung k := by simp [new]
  callers name := trivial
  awaited k _ h := by simp [new] at h
  state := rfl

theorem Orderly.lt_of_mem_rung (h : s.Orderly w s₀) {k : Nat} (hk : k ∈ s.rung) :
    k < s.executed.length := by
  obtain ⟨hlt, -⟩ := List.getElem?_eq_some_iff.mp ((h.rung k).mp hk)
  exact hlt

/-! ### Steps of callers -/

/-- A caller goes somewhere else and leaves no bell that has not rung. -/
theorem Orderly.place (h : s.Orderly w s₀) {name : Nat} {c : Caller} (hc : c.Fits s.toBook)
    (hleft : ∀ why before k, s.caller name = .waiting why before k → k ∈ s.rung) :
    (s.place name c).Orderly w s₀ where
  balanced := h.balanced
  bells := h.bells
  rung := h.rung
  callers other := by
    show (Function.update s.caller name c other).Fits s.toBook
    by_cases hother : other = name
    · rw [hother, Function.update_self]
      exact hc
    · rw [Function.update_of_ne hother]
      exact h.callers other
  awaited k hk hbell := by
    obtain ⟨other, why, before, hother⟩ := h.awaited k hk hbell
    refine ⟨other, why, before, ?_⟩
    have hne : other ≠ name := by
      rintro rfl
      exact absurd (h.lt_of_mem_rung (hleft why before k hother)) (Nat.not_lt.mpr hk)
    show Function.update s.caller name c other = _
    rw [Function.update_of_ne hne, hother]
  state := h.state

theorem balanced_enqueue {t : Nat} (h : s.toBook.Balanced s.threads t) (es : List (Entry J)) :
    (s.enqueue es).toBook.Balanced s.threads t where
  alone := h.alone
  fifo := by
    show s.submitted ++ es = s.executed ++ (s.threads t).held ++ (s.queue ++ es)
    rw [h.fifo, List.append_assoc _ s.queue]
  count := by
    show s.unfinished + es.length = (s.queue ++ es).length + (s.threads t).owing
    rw [h.count, List.length_append]
    omega

theorem Orderly.enqueue (h : s.Orderly w s₀) (js : List J) :
    (s.enqueue (js.map .job)).Orderly w s₀ where
  balanced := by
    obtain ⟨t, ht⟩ := h.balanced
    exact ⟨t, balanced_enqueue ht _⟩
  bells i k hbell := h.bells i k (Entry.getElem?_append_jobs hbell)
  rung := h.rung
  callers name := (Book.Grows.enqueue _ _).fits (h.callers name)
  awaited k hk hbell := h.awaited k hk (Entry.getElem?_append_jobs hbell)
  state := h.state

/-- A caller puts a bell into the queue and waits for it. -/
theorem Orderly.putBell (h : s.Orderly w s₀) {name before : Nat} (why : Errand)
    (hbefore : before ≤ s.submitted.length)
    (hleft : ∀ why before k, s.caller name ≠ .waiting why before k) :
    ((s.enqueue [.bell s.submitted.length]).place name
      (.waiting why before s.submitted.length)).Orderly w s₀ where
  balanced := by
    obtain ⟨t, ht⟩ := h.balanced
    exact ⟨t, balanced_enqueue ht _⟩
  bells i k hbell := by
    rcases Entry.getElem?_concat hbell with hold | ⟨hi, hnew⟩
    · exact h.bells i k hold
    · cases hnew
      exact hi.symm
  rung := h.rung
  callers other := by
    show (Function.update s.caller name _ other).Fits _
    by_cases hother : other = name
    · rw [hother, Function.update_self]
      exact ⟨hbefore, List.getElem?_concat_length⟩
    · rw [Function.update_of_ne hother]
      exact (Book.Grows.enqueue _ _).fits (h.callers other)
  awaited k hk hbell := by
    show ∃ other why' before', Function.update s.caller name _ other = .waiting why' before' k
    rcases Entry.getElem?_concat hbell with hold | ⟨rfl, -⟩
    · obtain ⟨other, why', before', hother⟩ := h.awaited k hk hold
      have hne : other ≠ name := by
        rintro rfl
        exact hleft _ _ _ hother
      exact ⟨other, why', before', by rw [Function.update_of_ne hne, hother]⟩
    · exact ⟨name, why, before, Function.update_self _ _ _⟩
  state := h.state

theorem Orderly.call (h : s.Orderly w s₀) {name : Nat} (hfree : (s.caller name).isFree = true)
    (c : Call J) : (s.begin name c).Orderly w s₀ := by
  have hleft : ∀ why before k, s.caller name = .waiting why before k → k ∈ s.rung := by
    intro why before k hwaiting
    rw [hwaiting] at hfree
    cases hfree
  cases c with
  | submit j => exact (h.enqueue [j]).place trivial hleft
  | start => exact h.place trivial hleft
  | stop => exact h.place (Nat.le_refl _) hleft
  | flush => exact h.place (Nat.le_refl _) hleft

/-- A thread is started while no other is alive. -/
theorem balanced_start {t₀ t : Nat} (h : s.toBook.Balanced s.threads t₀)
    (hfresh : s.threads t = .fresh) (hone : (s.turn t .looking).OneWriter) :
    s.toBook.Balanced (s.turn t .looking).threads t := by
  have hnew : (s.turn t .looking).threads t = .looking := Function.update_self _ _ _
  have halive : ((s.turn t .looking).threads t).isAlive = true := by rw [hnew]; rfl
  have hdead : (s.threads t₀).isAlive = false := by
    by_cases ht : t₀ = t
    · rw [ht, hfresh]
      rfl
    · by_contra hold
      have hsame : (s.turn t .looking).threads t₀ = s.threads t₀ := Function.update_of_ne ht _ _
      exact ht (hone t₀ t (by rwa [hsame, ← Bool.not_eq_false]) halive)
  refine ⟨fun u hu => hone u t hu halive, ?_, ?_⟩
  · show s.submitted = s.executed ++ ((s.turn t .looking).threads t).held ++ s.queue
    rw [hnew, h.fifo, Writing.held_of_not_alive hdead]
    rfl
  · show s.unfinished = s.queue.length + ((s.turn t .looking).threads t).owing
    rw [hnew, h.count, Writing.owing_of_not_alive hdead]
    rfl

theorem Orderly.launch (h : s.Orderly w s₀) {name : Nat} (hname : s.caller name = .launching)
    (hone : (s.launch name).OneWriter) : (s.launch name).Orderly w s₀ := by
  have hleft : ∀ why before k, s.caller name = .waiting why before k → k ∈ s.rung := by
    simp [hname]
  cases hown : s.own with
  | none =>
    simp only [Lane.launch, hown]
    exact h.place trivial hleft
  | some t =>
    cases hthread : s.threads t with
    | fresh =>
      simp only [Lane.launch, hown, hthread] at hone ⊢
      obtain ⟨t₀, ht₀⟩ := h.balanced
      have hstarted : (s.turn t .looking).Orderly w s₀ :=
        { h with balanced := ⟨t, balanced_start ht₀ hthread hone⟩ }
      exact hstarted.place trivial hleft
    | looking | taking | holding | counting | ended =>
      simp only [Lane.launch, hown, hthread]
      exact h.place trivial hleft

theorem Orderly.join (h : s.Orderly w s₀) {name : Nat} (hname : s.caller name = .joining) :
    (s.join name).Orderly w s₀ := by
  have hleft : ∀ why before k, s.caller name = .waiting why before k → k ∈ s.rung := by
    simp [hname]
  unfold Lane.join
  split
  · exact h.place trivial hleft
  · split <;> exact h.place trivial hleft

theorem Orderly.goOn (h : s.Orderly w s₀) (name : Nat) (hone : (s.goOn name).OneWriter) :
    (s.goOn name).Orderly w s₀ := by
  have hfits := h.callers name
  unfold Lane.goOn at hone ⊢
  cases hname : s.caller name with
  | free | flushed | failed => exact h
  | starting =>
    simp only
    split <;> exact h.place trivial (by simp [hname])
  | unmarking =>
    exact Orderly.place (s := { s with stopMark := false }) { h with } trivial (by simp [hname])
  | creating =>
    exact Orderly.place (s := { s with own := some s.born, born := s.born + 1 }) { h with } trivial
      (by simp [hname])
  | launching =>
    rw [hname] at hone
    exact h.launch hname hone
  | stopping before =>
    rw [hname] at hfits
    simp only
    split
    · exact h.place hfits (by simp [hname])
    · exact h.place trivial (by simp [hname])
  | asking why before =>
    rw [hname] at hfits
    simp only
    split <;> exact h.place hfits (by simp [hname])
  | putting why before =>
    rw [hname] at hfits
    exact h.putBell why hfits (by simp [hname])
  | waiting why before place =>
    rw [hname] at hfits
    simp only
    split
    · next hrung =>
      have hplace : place < s.executed.length := h.lt_of_mem_rung hrung
      obtain ⟨t, ht⟩ := h.balanced
      have hexecuted := ht.executed_prefix.length_le
      refine h.place ?_ ?_
      · cases why with
        | flush => exact ⟨by have := hfits.1; omega, fun _ => by have := hfits.1; omega⟩
        | stop => trivial
      · rintro why' before' k hwaiting
        rw [hname] at hwaiting
        cases hwaiting
        exact hrung
    · exact h
  | weighing why before =>
    rw [hname] at hfits
    refine h.place ?_ (by simp [hname])
    cases why with
    | flush =>
      refine ⟨hfits, fun hnone => ?_⟩
      obtain ⟨t, ht⟩ := h.balanced
      rw [ht.executed_eq (of_decide_eq_true hnone)]
      exact hfits
    | stop => trivial
  | marking =>
    exact Orderly.place (s := { s with stopMark := true }) { h with } trivial (by simp [hname])
  | joining => exact h.join hname
  | awaiting t =>
    simp only
    split
    · exact h.place trivial (by simp [hname])
    · exact h
  | checking =>
    simp only
    split <;> exact h.place trivial (by simp [hname])
  | dropping =>
    exact Orderly.place (s := { s with own := none }) { h with } trivial (by simp [hname])

/-! ### Steps of threads -/

/-- A living thread goes on; what it holds from now on agrees with the book. -/
theorem balanced_turn {b : Book σ J} {t : Nat} (h : s.toBook.Balanced s.threads t) {v : Writing J}
    (hfifo : b.submitted = b.executed ++ v.held ++ b.queue)
    (hcount : b.unfinished = b.queue.length + v.owing) :
    b.Balanced (s.turn t v).threads t where
  alone u hu := by
    by_contra hne
    have hsame : (s.turn t v).threads u = s.threads u := Function.update_of_ne hne _ _
    exact hne (h.alone u (by rwa [hsame] at hu))
  fifo := by
    show b.submitted = b.executed ++ (Function.update s.threads t v t).held ++ b.queue
    rwa [Function.update_self]
  count := by
    show b.unfinished = b.queue.length + (Function.update s.threads t v t).owing
    rwa [Function.update_self]

/-- The thread that is alive is the one with which the book agrees. -/
theorem Orderly.balanced_of_alive (h : s.Orderly w s₀) {t : Nat}
    (halive : (s.threads t).isAlive = true) : s.toBook.Balanced s.threads t := by
  obtain ⟨t', ht⟩ := h.balanced
  obtain rfl := ht.alone t halive
  exact ht

/-- The thread at hand comes to the end of an entry. -/
theorem Orderly.finish (h : s.Orderly w s₀) {t : Nat} {e : Entry J}
    (hholding : s.threads t = .holding e) {state : σ} {rung : List Nat} {failures : List J}
    (hstate : state = inTurn w s₀ (Entry.jobs (s.executed ++ [e])))
    (hrung : ∀ k, k ∈ rung ↔ (s.executed ++ [e])[k]? = some (.bell k)) :
    Orderly w s₀ (turn t .counting
      { s with
        state := state
        rung := rung
        executed := s.executed ++ [e]
        failures := failures }) := by
  have halive : (s.threads t).isAlive = true := by rw [hholding]; rfl
  have ht := h.balanced_of_alive halive
  have hgrows : s.toBook.Grows
      { s.toBook with
        state := state
        rung := rung
        executed := s.executed ++ [e]
        failures := failures } := ⟨List.prefix_rfl, List.prefix_append _ _⟩
  have hfifo := ht.fifo
  have hcount := ht.count
  rw [hholding] at hfifo hcount
  have hdone : s.submitted = s.executed ++ [e] ++ (Writing.counting : Writing J).held ++ s.queue :=
    by simpa [Writing.held] using hfifo
  exact
    { balanced := ⟨t, balanced_turn ht hdone hcount⟩
      bells := h.bells
      rung := hrung
      callers := fun name => hgrows.fits (h.callers name)
      awaited := fun k hk => h.awaited k (Nat.le_trans hgrows.executed.length_le hk)
      state := hstate }

theorem inTurn_concat (w : Worker σ J) (s₀ : σ) (js : List J) (j : J) :
    inTurn w s₀ (js ++ [j]) = (w.run j (inTurn w s₀ js)).1 := by simp [inTurn]

theorem Orderly.execute (h : s.Orderly w s₀) {t : Nat} {e : Entry J}
    (hholding : s.threads t = .holding e) :
    (turn t .counting { s with toBook := s.toBook.execute w fails e }).Orderly w s₀ := by
  have halive : (s.threads t).isAlive = true := by rw [hholding]; rfl
  cases e with
  | job j =>
    have hstate : (w.run j s.state).1 = inTurn w s₀ (Entry.jobs (s.executed ++ [.job j])) := by
      rw [Entry.jobs_append, Entry.jobs_job, inTurn_concat, ← h.state]
    have hrung : ∀ k, k ∈ s.rung ↔ (s.executed ++ [.job j])[k]? = some (.bell k) := by
      intro k
      refine (h.rung k).trans ⟨Entry.getElem?_of_prefix (List.prefix_append _ _), fun hbell => ?_⟩
      have hbell : (s.executed ++ [j].map .job)[k]? = some (.bell k) := hbell
      exact Entry.getElem?_append_jobs hbell
    exact (h.finish hholding hstate hrung).enqueue _
  | bell k =>
    have hstate : s.state = inTurn w s₀ (Entry.jobs (s.executed ++ [.bell k])) := by
      rw [Entry.jobs_append, Entry.jobs_bell, List.append_nil]
      exact h.state
    -- The bell stands at its place, so all that is in front of it is done.
    have hplace : k = s.executed.length := by
      refine h.bells _ _ ?_
      rw [(h.balanced_of_alive halive).fifo, hholding]
      simp [Writing.held]
    refine h.finish hholding hstate fun k' => ?_
    rw [List.mem_append, List.mem_singleton, h.rung]
    constructor
    · rintro (hk' | rfl)
      · exact Entry.getElem?_of_prefix (List.prefix_append _ _) hk'
      · rw [hplace]
        exact List.getElem?_concat_length
    · intro hk'
      rcases Entry.getElem?_concat hk' with hk' | ⟨-, hk'⟩
      · exact .inl hk'
      · cases hk'
        exact .inr rfl

theorem Orderly.work (h : s.Orderly w s₀) (t : Nat) : (s.work w fails t).Orderly w s₀ := by
  unfold Lane.work
  cases hthread : s.threads t with
  | fresh | ended => exact h
  | looking =>
    have ht := h.balanced_of_alive (t := t) (by rw [hthread]; rfl)
    have hfifo := ht.fifo
    have hcount := ht.count
    rw [hthread] at hfifo hcount
    simp only
    split <;> exact { h with balanced := ⟨t, balanced_turn ht hfifo hcount⟩ }
  | taking =>
    have ht := h.balanced_of_alive (t := t) (by rw [hthread]; rfl)
    have hfifo := ht.fifo
    have hcount := ht.count
    rw [hthread] at hfifo hcount
    cases hqueue : s.queue with
    | nil => exact { h with balanced := ⟨t, balanced_turn ht hfifo hcount⟩ }
    | cons e r =>
      rw [hqueue] at hfifo hcount
      have hbalanced : Book.Balanced { s.toBook with queue := r }
          (s.turn t (.holding e)).threads t :=
        balanced_turn ht (by simpa [Writing.held] using hfifo)
          (by simpa [Writing.owing] using hcount)
      exact { h with balanced := ⟨t, hbalanced⟩ }
  | holding e => exact h.execute hthread
  | counting =>
    have ht := h.balanced_of_alive (t := t) (by rw [hthread]; rfl)
    have hfifo := ht.fifo
    have hcount := ht.count
    rw [hthread] at hfifo hcount
    have hbalanced : Book.Balanced { s.toBook with unfinished := s.unfinished - 1 }
        (s.turn t .looking).threads t :=
      balanced_turn ht hfifo (by simp only [Writing.owing] at hcount ⊢; omega)
    exact { h with balanced := ⟨t, hbalanced⟩ }

theorem Orderly.step (h : s.Orderly w s₀) (e : Event J) (hone : (s.step w fails e).OneWriter) :
    (s.step w fails e).Orderly w s₀ := by
  cases e with
  | call name c =>
    simp only [Lane.step]
    split
    · next hfree => exact h.call hfree c
    · exact h
  | goOn name => exact h.goOn name hone
  | work t => exact h.work t

/-- No two threads are alive at any moment of a run. -/
def OneWriterAlong (w : Worker σ J) (fails : J → σ → Bool) (s : Lane σ J) (es : List (Event J)) :
    Prop := ∀ past, past <+: es → (s.run w fails past).OneWriter

theorem OneWriterAlong.left {es es' : List (Event J)}
    (h : s.OneWriterAlong w fails (es ++ es')) : s.OneWriterAlong w fails es :=
  fun past hpast => h past (hpast.trans (List.prefix_append _ _))

theorem OneWriterAlong.right {es es' : List (Event J)}
    (h : s.OneWriterAlong w fails (es ++ es')) : (s.run w fails es).OneWriterAlong w fails es' := by
  intro past hpast
  rw [← run_append]
  exact h _ ((List.prefix_append_right_inj es).mpr hpast)

theorem Orderly.run (h : s.Orderly w s₀) {es : List (Event J)}
    (hone : s.OneWriterAlong w fails es) :
    (s.run w fails es).Orderly w s₀ := by
  induction es using List.reverseRecOn with
  | nil => exact h
  | append_singleton es e ih =>
    have hlast := hone _ List.prefix_rfl
    rw [run_concat] at hlast ⊢
    exact (ih hone.left).step e hlast

end Lane

end Notebook
