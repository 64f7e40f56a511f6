import Mathlib.Data.List.Induction
import Mathlib.Logic.Function.Basic
import Mathlib.Logic.Relation
import Notebook.Embedding.Engine

/-!
# Loading while others look on

A loading is the embedding engine, which `Engine` has call by call, with the threads that load for
it, with a starter, which starts the loading again and again, and with any number of guests, which
wait until it has loaded or embed texts in the meantime.  A step is something that nobody can come
between: it looks at the thread, the mark, the loader or the table of the engine, or it changes one
of them.

How often the loader is called and what it comes back with is taken down; no step depends on it.
-/

namespace Notebook

/-- What a thread that loads for an engine is at. -/
inductive Fetching
  /-- It was not started yet. -/
  | fresh
  | calling
  /-- It is in the loader; the number tells how many calls of the loader there were before. -/
  | loading (turn : Nat)
  /-- It is about to let those go who wait. -/
  | marking
  | ended
  deriving DecidableEq

/-- Where the starter of an engine is. -/
inductive Starting
  | idle
  /-- It is about to see whether the engine has a thread. -/
  | asking
  /-- It is about to see whether the loading has ended. -/
  | checking
  /-- It is about to see whether there is a loader. -/
  | seeking
  | marking
  | making
  | launching
  deriving DecidableEq

/-- Where a guest of an engine is, or with what answer it has come back. -/
inductive Guest
  | free
  | waiting
  /-- It is about to see whether there is a table. -/
  | passing
  | waited (loaded : Bool)
  | embedded (text : String) (answer : Except Grid.Mismatch (Option Grid))

/-- What a guest does next. -/
inductive Visit
  | wait
  /-- It is let go, or it sees whether there is a table. -/
  | pass
  /-- It has waited for as long as it wanted to. -/
  | giveUp
  | embed (text : String)

namespace Guest

/-- May the guest call again? -/
def isFree : Guest → Bool
  | .waiting | .passing => false
  | _ => true

/-- One that waits is let go by the mark.  All answers are those of the engine. -/
def next (mark : Bool) (e : Engine) (g : Guest) : Visit → Guest
  | .wait => if g.isFree then .waiting else g
  | .pass =>
    match g with
    | .waiting => if mark then .passing else .waiting
    | .passing => .waited e.isLoaded
    | g => g
  | .giveUp =>
    match g with
    | .waiting => .passing
    | g => g
  | .embed text => if g.isFree then .embedded text (e.embed text) else g

/-- The answer, if there is one, is told by what the loader has come back with. -/
def Honest (returned : List (Option WordTable)) : Guest → Prop
  | .waited loaded => loaded = true → ∃ t, some t ∈ returned
  | .embedded text answer => answer = .ok none ∨ ∃ t, some t ∈ returned ∧ answer = t.embed text
  | _ => True

theorem Honest.mono {r r' : List (Option WordTable)} (hr : r ⊆ r') {g : Guest}
    (h : g.Honest r) : g.Honest r' := by
  cases g with
  | free | waiting | passing => trivial
  | waited loaded =>
    intro hloaded
    obtain ⟨t, ht⟩ := h hloaded
    exact ⟨t, hr ht⟩
  | embedded text answer =>
    rcases h with h | ⟨t, ht, h⟩
    · exact .inl h
    · exact .inr ⟨t, hr ht, h⟩

theorem Honest.next {r : List (Option WordTable)} {g : Guest} (h : g.Honest r) {e : Engine}
    (he : ∀ t ∈ e.table, some t ∈ r) (mark : Bool) (v : Visit) : (g.next mark e v).Honest r := by
  cases v with
  | wait =>
    simp only [Guest.next]
    split
    · trivial
    · exact h
  | pass =>
    cases g with
    | waiting => cases mark <;> trivial
    | passing =>
      intro hloaded
      obtain ⟨t, ht⟩ := Option.isSome_iff_exists.mp hloaded
      exact ⟨t, he t ht⟩
    | free | waited | embedded => exact h
  | giveUp =>
    cases g with
    | waiting => trivial
    | free | passing | waited | embedded => exact h
  | embed text =>
    simp only [Guest.next]
    split
    · unfold Engine.embed
      cases ht : e.table with
      | none => exact .inl rfl
      | some t => exact .inr ⟨t, he t ht, rfl⟩
    · exact h

end Guest

/-- What an engine is made of. -/
structure Gear where
  /-- What the loader comes to each time that it is called, if there is a loader: a table, or a
  failure. -/
  loader : Option (Nat → Option WordTable)
  table : Option WordTable
  /-- The loading has ended; nobody has to wait for it any more. -/
  mark : Bool
  /-- The thread that the engine takes for its own. -/
  own : Option Nat
  threads : Nat → Fetching
  /-- How many threads there have been. -/
  born : Nat
  /-- How often the loader was called. -/
  calls : Nat
  /-- What the loader has come back with, call for call. -/
  returned : List (Option WordTable)

namespace Gear

/-- What is seen of the gear as an engine.  The loading is at its end once the loader has come back,
although the mark is set only after that. -/
def engine (g : Gear) : Engine where
  loader := g.loader.map (· 0)
  stage :=
    if g.mark || !g.returned.isEmpty then .ended else if g.own.isSome then .loading else .idle
  table := g.table
  calls := g.born

def turn (t : Nat) (w : Fetching) (g : Gear) : Gear :=
  { g with threads := Function.update g.threads t w }

/-- The thread of the engine is started; no thread is started twice. -/
def launch (g : Gear) : Gear :=
  match g.own with
  | none => g
  | some t => if g.threads t = .fresh then g.turn t .calling else g

/-- A thread takes its next step.  Where the loader fails the table stays as it was. -/
def work (t : Nat) (g : Gear) : Gear :=
  match g.threads t with
  | .fresh | .ended => g
  | .calling => { g with calls := g.calls + 1 }.turn t (.loading g.calls)
  | .loading n =>
    let o := g.loader.bind (· n)
    { g with table := o.or g.table, returned := g.returned ++ [o] }.turn t .marking
  | .marking => { g with mark := true }.turn t .ended

end Gear

/-- A call of start, or the end of the loading, in one step. -/
def Engine.Moves (e e' : Engine) : Prop := e' = e.start ∨ e' = e.finish

structure Loading extends Gear where
  starter : Starting
  guests : Nat → Guest

namespace Loading

inductive Event
  | start
  /-- The starter takes its next step. -/
  | goOn
  | work (thread : Nat)
  | guest (name : Nat) (v : Visit)

def new (loader : Option (Nat → Option WordTable)) : Loading :=
  ⟨⟨loader, none, false, none, fun _ => .fresh, 0, 0, []⟩, .idle, fun _ => .free⟩

/-- An engine around a table that is there already. -/
def ofTable (t : WordTable) : Loading :=
  ⟨⟨none, some t, true, none, fun _ => .fresh, 0, 0, []⟩, .idle, fun _ => .free⟩

def goOn (s : Loading) : Loading :=
  match s.starter with
  | .idle => s
  | .asking => { s with starter := if s.own.isSome then .idle else .checking }
  | .checking => { s with starter := if s.mark then .idle else .seeking }
  | .seeking => { s with starter := if s.loader.isNone then .marking else .making }
  | .marking => { s with mark := true, starter := .idle }
  | .making => { s with own := some s.born, born := s.born + 1, starter := .launching }
  | .launching => { s with toGear := s.launch, starter := .idle }

def step (s : Loading) : Event → Loading
  | .start => if s.starter = .idle then { s with starter := .asking } else s
  | .goOn => s.goOn
  | .work t => { s with toGear := s.toGear.work t }
  | .guest name v =>
    let g := (s.guests name).next s.mark s.engine v
    { s with guests := Function.update s.guests name g }

def run (s : Loading) (es : List Event) : Loading := es.foldl step s

variable {s : Loading}

theorem run_concat (s : Loading) (es : List Event) (e : Event) :
    s.run (es ++ [e]) = (s.run es).step e := by simp [run]

theorem run_append (s : Loading) (es es' : List Event) :
    s.run (es ++ es') = (s.run es).run es' := by simp [run]

/-! ### Phases -/

/-- How far the loading has come. -/
inductive Phase
  | untouched
  /-- There was no loader. -/
  | dismissed
  | made
  | launched
  | called
  | stored
  | ended
  deriving DecidableEq

/-- In each phase there is just one way the engine can be in. -/
def Phase.gear (loader : Option (Nat → Option WordTable)) : Phase → Gear
  | .untouched => ⟨loader, none, false, none, fun _ => .fresh, 0, 0, []⟩
  | .dismissed => ⟨loader, none, true, none, fun _ => .fresh, 0, 0, []⟩
  | .made => ⟨loader, none, false, some 0, fun _ => .fresh, 1, 0, []⟩
  | .launched => ⟨loader, none, false, some 0, only .calling, 1, 0, []⟩
  | .called => ⟨loader, none, false, some 0, only (.loading 0), 1, 1, []⟩
  | .stored => ⟨loader, model, false, some 0, only .marking, 1, 1, [model]⟩
  | .ended => ⟨loader, model, true, some 0, only .ended, 1, 1, [model]⟩
where
  only (w : Fetching) : Nat → Fetching := Function.update (fun _ => .fresh) 0 w
  model : Option WordTable := loader.bind (· 0)

/-- Where the starter can be in a phase. -/
inductive Phase.Allows (loader : Option (Nat → Option WordTable)) : Phase → Starting → Prop
  | idle {p : Phase} (h : p ≠ .made) : Allows loader p .idle
  | asking {p : Phase} (h : p ≠ .made) : Allows loader p .asking
  | checking {p : Phase} (h : p = .untouched ∨ p = .dismissed) : Allows loader p .checking
  | seeking : Allows loader .untouched .seeking
  | marking (h : loader = none) : Allows loader .untouched .marking
  | making (h : loader.isSome = true) : Allows loader .untouched .making
  | launching : Allows loader .made .launching

/-- The thread was started. -/
def Phase.isLaunched : Phase → Bool
  | .untouched | .dismissed | .made => false
  | .launched | .called | .stored | .ended => true

/-- What can happen to the engine in one step. -/
inductive Phase.Next (loader : Option (Nat → Option WordTable)) : Phase → Phase → Prop
  | stay (p : Phase) : Next loader p p
  | dismiss (h : loader = none) : Next loader .untouched .dismissed
  | make (h : loader.isSome = true) : Next loader .untouched .made
  | launch : Next loader .made .launched
  | call : Next loader .launched .called
  | store : Next loader .called .stored
  | finish : Next loader .stored .ended

variable {loader : Option (Nat → Option WordTable)} {p q : Phase}

theorem Phase.Next.returned_subset (h : Phase.Next loader p q) :
    (p.gear loader).returned ⊆ (q.gear loader).returned := by
  cases h with
  | stay => exact List.Subset.refl _
  | finish => exact List.Subset.refl _
  | dismiss | make | launch | call | store => exact List.nil_subset _

theorem Phase.table_gear_eq_some_iff {t : WordTable} (p : Phase) :
    (p.gear loader).table = some t ↔ some t ∈ (p.gear loader).returned := by
  cases p with
  | untouched | dismissed | made | launched | called => simp [gear]
  | stored | ended => simp [gear, eq_comm]

theorem Phase.calls_gear_le (p : Phase) : (p.gear loader).calls ≤ 1 := by
  cases p <;> simp [gear]

/-! ### Steps -/

/-- Only one thread was ever started. -/
theorem Phase.threads_gear_of_ne (p : Phase) {t : Nat} (ht : t ≠ 0) :
    (p.gear loader).threads t = .fresh := by
  cases p with
  | untouched | dismissed | made => rfl
  | launched | called | stored | ended => simp [gear, gear.only, ht]

/-- Where the thread takes the engine with its next step. -/
def Phase.afterWork : Phase → Phase
  | .launched => .called
  | .called => .stored
  | .stored => .ended
  | p => p

theorem Phase.next_afterWork (p : Phase) : Phase.Next loader p p.afterWork := by
  cases p with
  | untouched | dismissed | made | ended => exact .stay _
  | launched => exact .call
  | called => exact .store
  | stored => exact .finish

theorem Phase.work_gear_zero (p : Phase) :
    (p.gear loader).work 0 = p.afterWork.gear loader := by
  cases p with
  | untouched | dismissed | made | ended => rfl
  | launched | called | stored =>
    simp [afterWork, Gear.work, Gear.turn, gear, gear.only, gear.model]

/-- The engine is in the phase, and the starter where it can be then. -/
structure At (loader : Option (Nat → Option WordTable)) (p : Phase) (s : Loading) : Prop where
  gear : s.toGear = p.gear loader
  starter : p.Allows loader s.starter

theorem at_new (loader : Option (Nat → Option WordTable)) : (new loader).At loader .untouched :=
  ⟨rfl, .idle nofun⟩

/-- Once the thread was started the starter finds it and turns back. -/
theorem Phase.Allows.of_isLaunched {c : Starting} (h : p.Allows loader c)
    (hp : p.isLaunched = true) (hq : q ≠ .made) : q.Allows loader c := by
  cases h with
  | idle => exact .idle hq
  | asking => exact .asking hq
  | checking h => rcases h with rfl | rfl <;> cases hp
  | seeking | marking | making | launching => cases hp

theorem At.work (h : s.At loader p) (t : Nat) :
    ∃ q, Phase.Next loader p q ∧ (s.step (.work t)).At loader q := by
  by_cases ht : t = 0
  · subst ht
    refine ⟨p.afterWork, p.next_afterWork, ?_, ?_⟩
    · show s.toGear.work 0 = _
      rw [h.gear, p.work_gear_zero]
    · cases p with
      | untouched | dismissed | made | ended => exact h.starter
      | launched | called | stored => exact h.starter.of_isLaunched rfl nofun
  · refine ⟨p, .stay p, ?_, h.starter⟩
    show s.toGear.work t = _
    rw [h.gear]
    unfold Gear.work
    rw [p.threads_gear_of_ne ht]

theorem At.goOn (h : s.At loader p) : ∃ q, Phase.Next loader p q ∧ s.goOn.At loader q := by
  obtain ⟨g, c, guests⟩ := s
  obtain ⟨rfl, hc⟩ := h
  cases hc with
  | idle hp => exact ⟨p, .stay p, rfl, .idle hp⟩
  | asking hp =>
    refine ⟨p, .stay p, rfl, ?_⟩
    cases p with
    | untouched => exact .checking (.inl rfl)
    | dismissed => exact .checking (.inr rfl)
    | made => exact absurd rfl hp
    | launched | called | stored | ended => exact .idle nofun
  | checking hp =>
    refine ⟨p, .stay p, rfl, ?_⟩
    rcases hp with rfl | rfl
    · exact .seeking
    · exact .idle nofun
  | seeking =>
    refine ⟨_, .stay _, rfl, ?_⟩
    cases loader with
    | none => exact .marking rfl
    | some f => exact .making rfl
  | marking hloader => exact ⟨_, .dismiss hloader, rfl, .idle nofun⟩
  | making hloader => exact ⟨_, .make hloader, rfl, .launching⟩
  | launching => exact ⟨_, .launch, rfl, .idle nofun⟩

theorem At.step (h : s.At loader p) (e : Event) :
    ∃ q, Phase.Next loader p q ∧ (s.step e).At loader q := by
  cases e with
  | start =>
    refine ⟨p, .stay p, ?_⟩
    simp only [Loading.step]
    split
    · next hidle =>
      have hstarter := h.starter
      rw [hidle] at hstarter
      cases hstarter with
      | idle hp => exact ⟨h.gear, .asking hp⟩
    · exact h
  | goOn => exact h.goOn
  | work t => exact h.work t
  | guest name v => exact ⟨p, .stay p, h.gear, h.starter⟩

theorem At.run (h : s.At loader p) (es : List Event) :
    ∃ q, Relation.ReflTransGen (Phase.Next loader) p q ∧ (s.run es).At loader q := by
  induction es using List.reverseRecOn with
  | nil => exact ⟨p, .refl, h⟩
  | append_singleton es e ih =>
    obtain ⟨q, hpq, hq⟩ := ih
    obtain ⟨r, hqr, hr⟩ := hq.step e
    rw [run_concat]
    exact ⟨r, hpq.tail hqr, hr⟩

/-! ### What is seen of the engine -/

/-- A call of start counts when the thread is made, or when the mark is set because there is no
loader; the end of the loading counts when the table is stored. -/
theorem Phase.Next.engine_moves (h : Phase.Next loader p q) :
    (q.gear loader).engine = (p.gear loader).engine ∨
      (p.gear loader).engine.Moves (q.gear loader).engine := by
  cases h with
  | stay | launch | call | finish => exact .inl rfl
  | dismiss hloader =>
    subst hloader
    exact .inr (.inl rfl)
  | make hloader =>
    obtain ⟨f, rfl⟩ := Option.isSome_iff_exists.mp hloader
    exact .inr (.inl rfl)
  | store => cases loader <;> exact .inr (.inr rfl)

/-- Whatever comes between the steps, the engine goes as if each call were a single one. -/
theorem At.engine_run (h : s.At loader p) (es : List Event) :
    Relation.ReflTransGen Engine.Moves s.engine (s.run es).engine := by
  obtain ⟨q, hpq, hq⟩ := h.run es
  rw [h.gear, hq.gear]
  refine hpq.lift' (fun p => (p.gear loader).engine) fun p q hnext => ?_
  show Relation.ReflTransGen Engine.Moves (p.gear loader).engine (q.gear loader).engine
  rcases hnext.engine_moves with hsame | hmoves
  · rw [hsame]
  · exact .single hmoves

/-- What the loader has come back with is not forgotten. -/
theorem At.returned_subset_run (h : s.At loader p) (es : List Event) :
    s.returned ⊆ (s.run es).returned := by
  obtain ⟨q, hpq, hq⟩ := h.run es
  rw [h.gear, hq.gear]
  clear hq
  induction hpq with
  | refl => exact List.Subset.refl _
  | tail _ hnext ih => exact List.Subset.trans ih hnext.returned_subset

theorem At.table_eq_some_iff (h : s.At loader p) {t : WordTable} :
    s.table = some t ↔ some t ∈ s.returned := by
  rw [h.gear]
  exact p.table_gear_eq_some_iff

theorem guests_goOn (s : Loading) : s.goOn.guests = s.guests := by
  unfold goOn
  cases s.starter <;> rfl

/-- Everybody is answered by what the loader has come back with. -/
theorem At.honest_run (h : s.At loader p) (hs : ∀ name, (s.guests name).Honest s.returned)
    (es : List Event) (name : Nat) : ((s.run es).guests name).Honest (s.run es).returned := by
  induction es using List.reverseRecOn generalizing name with
  | nil => exact hs name
  | append_singleton es e ih =>
    obtain ⟨q, -, hq⟩ := h.run es
    have hgrows : (s.run es).returned ⊆ ((s.run es).step e).returned :=
      hq.returned_subset_run [e]
    rw [run_concat]
    refine .mono hgrows ?_
    cases e with
    | start =>
      simp only [Loading.step]
      split <;> exact ih name
    | goOn =>
      show ((s.run es).goOn.guests name).Honest _
      rw [guests_goOn]
      exact ih name
    | work t => exact ih name
    | guest other v =>
      show (Function.update (s.run es).guests other _ name).Honest _
      by_cases hname : name = other
      · subst hname
        rw [Function.update_self]
        exact (ih name).next (fun t ht => hq.table_eq_some_iff.mp ht) _ v
      · rw [Function.update_of_ne hname]
        exact ih name

/-! ### The end -/

/-- Nothing is left to be done, neither for a thread nor for the starter. -/
structure Final (s : Loading) : Prop where
  mark : s.mark = true
  threads : ∀ t, s.threads t = .fresh ∨ s.threads t = .ended
  starter : s.starter = .idle ∨ s.starter = .asking ∨ s.starter = .checking

theorem At.final (h : s.At loader p) (hmark : s.mark = true) : s.Final := by
  have hp : p = .dismissed ∨ p = .ended := by
    rw [h.gear] at hmark
    cases p with
    | dismissed => exact .inl rfl
    | ended => exact .inr rfl
    | untouched | made | launched | called | stored => cases hmark
  refine ⟨hmark, fun t => ?_, ?_⟩
  · rw [h.gear]
    rcases hp with rfl | rfl
    · exact .inl rfl
    · by_cases ht : t = 0
      · exact .inr (by rw [ht]; rfl)
      · exact .inl (Phase.threads_gear_of_ne _ ht)
  · have hstarter := h.starter
    generalize s.starter = c at hstarter
    cases hstarter with
    | idle => exact .inl rfl
    | asking => exact .inr (.inl rfl)
    | checking => exact .inr (.inr rfl)
    | seeking | marking | making | launching => rcases hp with hp | hp <;> cases hp

theorem Final.goOn (h : s.Final) : s.goOn.toGear = s.toGear ∧ s.goOn.Final := by
  unfold Loading.goOn
  rcases h.starter with hstarter | hstarter | hstarter
  · rw [hstarter]
    exact ⟨rfl, h⟩
  · rw [hstarter]
    refine ⟨rfl, h.mark, h.threads, ?_⟩
    simp only
    split
    · exact .inl rfl
    · exact .inr (.inr rfl)
  · rw [hstarter]
    refine ⟨rfl, h.mark, h.threads, .inl ?_⟩
    simp only [h.mark]
    rfl

theorem Final.step (h : s.Final) (e : Event) :
    (s.step e).toGear = s.toGear ∧ (s.step e).Final := by
  cases e with
  | start =>
    simp only [Loading.step]
    split
    · exact ⟨rfl, h.mark, h.threads, .inr (.inl rfl)⟩
    · exact ⟨rfl, h⟩
  | goOn => exact h.goOn
  | work t =>
    have hwork : s.toGear.work t = s.toGear := by
      unfold Gear.work
      rcases h.threads t with ht | ht <;> rw [ht]
    have hsame : s.step (.work t) = s := by
      show ({ s with toGear := s.toGear.work t } : Loading) = s
      rw [hwork]
    rw [hsame]
    exact ⟨rfl, h⟩
  | guest name v => exact ⟨rfl, h.mark, h.threads, h.starter⟩

/-- After the end nothing changes but that guests come and go. -/
theorem Final.run (h : s.Final) (es : List Event) :
    (s.run es).toGear = s.toGear ∧ (s.run es).Final := by
  induction es using List.reverseRecOn with
  | nil => exact ⟨rfl, h⟩
  | append_singleton es e ih =>
    rw [run_concat]
    exact ⟨(ih.2.step e).1.trans ih.1, (ih.2.step e).2⟩

/-- An engine around a table stays the same engine. -/
theorem engine_run_ofTable (t : WordTable) (es : List Event) :
    ((ofTable t).run es).engine = Engine.ofTable t := by
  have hfinal : (ofTable t).Final := ⟨rfl, fun _ => .inl rfl, .inl rfl⟩
  show ((ofTable t).run es).toGear.engine = _
  rw [(hfinal.run es).1]
  rfl

/-- Nobody is kept waiting. -/
theorem Final.guests_pass (h : s.Final) {name : Nat} (hname : s.guests name = .waiting) :
    (s.step (.guest name .pass)).guests name = .passing := by
  show Function.update s.guests name ((s.guests name).next s.mark s.engine .pass) name = _
  rw [Function.update_self, hname, h.mark]
  rfl

/-! ### Ways to the end -/

/-- A call of start with nobody in between. -/
def starting : List Event := .start :: List.replicate 5 .goOn

/-- The way of the thread with nobody in between. -/
def loadingAlone : List Event := List.replicate 3 (.work 0)

theorem At.run_starting (h : s.At loader p) (hidle : s.starter = .idle) :
    (s.run starting).engine = s.engine.start ∧ (s.run starting).starter = .idle := by
  obtain ⟨g, c, guests⟩ := s
  obtain ⟨rfl, hc⟩ := h
  cases hidle
  cases hc with
  | idle hp =>
    cases p with
    | made => exact absurd rfl hp
    | untouched | dismissed | launched | called | stored | ended =>
      cases loader <;> exact ⟨rfl, rfl⟩

theorem At.run_loadingAlone (h : s.At loader p) (hidle : s.starter = .idle) :
    (s.run loadingAlone).engine = s.engine.finish ∧ (s.run loadingAlone).starter = .idle := by
  refine ⟨?_, hidle⟩
  have hstarter := h.starter
  rw [hidle] at hstarter
  show (((s.toGear.work 0).work 0).work 0).engine = _
  rw [h.gear]
  simp only [Phase.work_gear_zero]
  cases hstarter with
  | idle hp =>
    cases p with
    | made => exact absurd rfl hp
    | untouched | dismissed | launched | called | stored | ended => cases loader <;> rfl

/-- From everywhere the starter and the thread get to the end of the loading. -/
theorem At.mark_run (h : s.At loader p) : (s.run (starting ++ loadingAlone)).mark = true := by
  obtain ⟨g, c, guests⟩ := s
  obtain ⟨rfl, hc⟩ := h
  cases hc with
  | idle hp | asking hp =>
    cases p with
    | made => exact absurd rfl hp
    | untouched | dismissed | launched | called | stored | ended => cases loader <;> rfl
  | checking hp => rcases hp with rfl | rfl <;> cases loader <;> rfl
  | seeking => cases loader <;> rfl
  | marking | making | launching => rfl

/-- Every way that the engine can go is seen of some run. -/
theorem exists_run_of_moves {e : Engine}
    (h : Relation.ReflTransGen Engine.Moves (Engine.new (loader.map (· 0))) e) :
    ∃ es, ((new loader).run es).engine = e ∧ ((new loader).run es).starter = .idle := by
  induction h with
  | refl => exact ⟨[], rfl, rfl⟩
  | tail _ hmoves ih =>
    obtain ⟨es, rfl, hidle⟩ := ih
    obtain ⟨p, -, hp⟩ := (at_new loader).run es
    rcases hmoves with rfl | rfl
    · refine ⟨es ++ starting, ?_⟩
      rw [run_append]
      exact hp.run_starting hidle
    · refine ⟨es ++ loadingAlone, ?_⟩
      rw [run_append]
      exact hp.run_loadingAlone hidle

/-- The loader is called once at most, whatever it comes to.  The engine is loaded from the moment
when the loader has come back with a table, and embeds texts with it ever after; before, no text has
an embedding.  Once the loading has ended the engine stays as it is, and nobody has to wait. -/
theorem run_new (loader : Option (Nat → Option WordTable)) (es : List Event) :
    let s := (new loader).run es
    Relation.ReflTransGen Engine.Moves (Engine.new (loader.map (· 0))) s.engine ∧
      s.calls ≤ 1 ∧
      (s.engine.isLoaded = true ↔ ∃ t, some t ∈ s.returned) ∧
      (s.engine.isLoaded = false → ∀ text, s.engine.embed text = .ok none) ∧
      (∀ t, some t ∈ s.returned → ∀ later, (s.run later).engine.isLoaded = true ∧
        ∀ text, (s.run later).engine.embed text = t.embed text) ∧
      (∀ name, (s.guests name).Honest s.returned) ∧
      (s.returned ≠ [] → (s.step (.work 0)).mark = true) ∧
      (s.mark = true → ∀ later, (s.run later).toGear = s.toGear ∧
        ∀ name, (s.run later).guests name = .waiting →
          ((s.run later).step (.guest name .pass)).guests name = .passing) := by
  intro s
  obtain ⟨p, -, hs⟩ := (at_new loader).run es
  have hloaded {r : Loading} {t : WordTable} (hr : r.table = some t) :
      r.engine.isLoaded = true ∧ ∀ text, r.engine.embed text = t.embed text := by
    refine ⟨Option.isSome_iff_exists.mpr ⟨t, hr⟩, fun text => ?_⟩
    unfold Engine.embed
    rw [show r.engine.table = some t from hr]
  refine ⟨(at_new loader).engine_run es, ?_, ?_, ?_, ?_, ?_, ?_, ?_⟩
  · rw [hs.gear]
    exact p.calls_gear_le
  · exact Option.isSome_iff_exists.trans (exists_congr fun t => hs.table_eq_some_iff)
  · intro hnot text
    have htable : s.engine.table = none := by simpa [Engine.isLoaded] using hnot
    unfold Engine.embed
    rw [htable]
  · intro t ht later
    obtain ⟨q, -, hq⟩ := hs.run later
    exact hloaded (hq.table_eq_some_iff.mpr (hs.returned_subset_run later ht))
  · exact (at_new loader).honest_run (fun _ => trivial) es
  · intro hreturned
    rw [hs.gear] at hreturned
    show (s.toGear.work 0).mark = true
    rw [hs.gear]
    cases p with
    | stored | ended => rfl
    | untouched | dismissed | made | launched | called => exact absurd rfl hreturned
  · intro hmark later
    obtain ⟨hsame, hfinal⟩ := (hs.final hmark).run later
    exact ⟨hsame, fun name => hfinal.guests_pass⟩

/-- A loader that fails is not called again, although it would come back with a table then. -/
example :
    let s := (new (some fun n => if n = 0 then none else some .empty)).run
      (starting ++ loadingAlone ++ starting ++ loadingAlone)
    s.mark = true ∧ s.calls = 1 ∧ s.engine.isLoaded = false := by
  decide +kernel

end Loading

end Notebook
