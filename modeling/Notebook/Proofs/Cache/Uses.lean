import Mathlib.Data.List.Induction
import Notebook.Proofs.Cache.Lookup

/-!
# Caches in use

A cache is looked into, cleared and asked for its queries while time goes on.  Whatever is done, it
never holds more than its limit, or a single entry if the limit is lower.  A query that is new to a
full cache takes the place of all entries; no other look-up touches an entry of another query, and
one that fails touches none.
-/

namespace Notebook.Cache

variable {ε : Type}

/-! ### Runs -/

/-- One thing done with a cache.  A look-up comes with what looking for its query would find. -/
inductive Use (ε : Type)
  | lookup (query : Text) (found : Except ε (List Text))
  | clear
  | contains (query : Text)
  | advance (seconds : Float)

/-- A cache and the time by its clock. -/
structure Timed where
  cache : Cache
  now : Float

namespace Timed

def new (throttle : Float) (maxEntries : Int) (start : Float) : Timed :=
  ⟨.new throttle maxEntries, start⟩

def lookup (s : Timed) (query : Text) (found : Except ε (List Text)) : Lookup ε × Cache :=
  s.cache.lookup s.now query fun _ => found

def step (s : Timed) : Use ε → Timed
  | .lookup query found => { s with cache := (s.lookup query found).2 }
  | .clear => { s with cache := s.cache.clear }
  | .contains _ => s
  | .advance seconds => { s with now := s.now + seconds }

def run (s : Timed) (uses : List (Use ε)) : Timed := uses.foldl step s

theorem run_concat (s : Timed) (uses : List (Use ε)) (u : Use ε) :
    s.run (uses ++ [u]) = (s.run uses).step u := by
  simp [run]

/-- The settings of a cache stay as they are. -/
theorem settings_step (s : Timed) (u : Use ε) :
    (s.step u).cache.throttle = s.cache.throttle ∧
      (s.step u).cache.maxEntries = s.cache.maxEntries := by
  cases u with
  | lookup query found =>
    simp only [step, lookup]
    rcases snd_lookup_cases s.cache s.now query fun _ => found with h | ⟨ids, -, -, h⟩
    · rw [h]
      exact ⟨rfl, rfl⟩
    · rw [h]
      exact ⟨rfl, rfl⟩
  | clear | contains | advance => exact ⟨rfl, rfl⟩

theorem settings_run (s : Timed) (uses : List (Use ε)) :
    (s.run uses).cache.throttle = s.cache.throttle ∧
      (s.run uses).cache.maxEntries = s.cache.maxEntries := by
  induction uses using List.reverseRecOn with
  | nil => exact ⟨rfl, rfl⟩
  | append_singleton uses u ih =>
    rw [run_concat]
    exact ⟨(settings_step _ u).1.trans ih.1, (settings_step _ u).2.trans ih.2⟩

theorem size_step_le {s : Timed} (h : (s.cache.size : Int) ≤ max 1 s.cache.maxEntries)
    (u : Use ε) : ((s.step u).cache.size : Int) ≤ max 1 s.cache.maxEntries := by
  cases u with
  | lookup query found =>
    simp only [step, lookup]
    rcases snd_lookup_cases s.cache s.now query fun _ => found with hsame | ⟨ids, -, -, hput⟩
    · rw [hsame]
      exact h
    · rw [hput]
      exact size_put_le s.now ids h
  | clear =>
    show ((s.cache.clear.size : Nat) : Int) ≤ _
    rw [size_clear]
    omega
  | contains | advance => exact h

theorem size_run_le (s : Timed) (h : (s.cache.size : Int) ≤ max 1 s.cache.maxEntries)
    (uses : List (Use ε)) : ((s.run uses).cache.size : Int) ≤ max 1 s.cache.maxEntries := by
  induction uses using List.reverseRecOn with
  | nil => exact h
  | append_singleton uses u ih =>
    rw [run_concat]
    rw [← (settings_run s uses).2] at ih ⊢
    exact size_step_le ih u

/-- At any time a cache holds no more than its limit or one entry.  A look-up changes entries of
other queries just if it puts down a query that is new to a full cache, and then no other entry
stays; one whose search fails lets the error through and changes nothing. -/
theorem size_le_and_lookup (throttle : Float) (maxEntries : Int) (start : Float)
    (uses : List (Use ε)) :
    let s := (new throttle maxEntries start).run uses
    (s.cache.size : Int) ≤ max 1 maxEntries ∧
      ∀ (query : Text) (found : Except ε (List Text)),
        let full := s.cache.contains query = false ∧ maxEntries ≤ s.cache.size
        let after := (s.lookup query found).2
        (¬ (full ∧ ∃ ids, found = .ok ids) →
            ∀ q ≠ query, after.entries.get? q = s.cache.entries.get? q) ∧
          (full → ∀ ids, found = .ok ids → after.entries = [(query, ⟨ids, s.now⟩)]) ∧
          ∀ e, found = .error e → after = s.cache ∧
            (s.cache.fresh? s.now query = none → (s.lookup query found).1 = .failed e) := by
  intro s
  have hmax : s.cache.maxEntries = maxEntries := (settings_run _ uses).2
  have hsize : (s.cache.size : Int) ≤ max 1 maxEntries :=
    size_run_le (new throttle maxEntries start) (show (0 : Int) ≤ max 1 maxEntries by omega) uses
  refine ⟨hsize, fun query found => ?_⟩
  intro full after
  have hyields : s.cache.yields query = true ↔ full := by rw [yields_iff, hmax]
  refine ⟨fun hother q hq => ?_, fun hfull ids hfound => ?_, fun e hfound => ⟨?_, fun hfresh => ?_⟩⟩
  · rcases snd_lookup_cases s.cache s.now query fun _ => found with hsame | ⟨ids, -, hfound, hput⟩
    · exact congrArg (fun c => c.entries.get? q) hsame
    · have hroom : ¬ s.cache.yields query = true := fun h => hother ⟨hyields.mp h, ids, hfound⟩
      rw [show after = s.cache.put s.now query ids from hput, get?_entries_put, if_neg hq,
        if_neg hroom]
  · have hfresh : s.cache.fresh? s.now query = none := fresh?_of_not_contains hfull.1
    have hput : after = s.cache.put s.now query ids :=
      congrArg Prod.snd (lookup_of_success hfresh hfound)
    rw [hput, entries_put_of_yields s.now ids (hyields.mpr hfull)]
  · rcases snd_lookup_cases s.cache s.now query fun _ => found with hsame | ⟨ids, -, hok, -⟩
    · exact hsame
    · rw [hfound] at hok
      cases hok
  · exact congrArg Prod.fst (lookup_of_failure hfresh hfound)

end Timed

end Notebook.Cache
