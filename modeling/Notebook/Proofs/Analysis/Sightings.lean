import Notebook.Proofs.Analysis.Candidates

/-!
# What a tally counts

A tally is told by the candidates of a text in the order in which they are seen: how often each of
them is seen, and which one is seen first.  A line break ends a word, a run of capitalized words
and a sentence, so what is seen in two texts with a line break between them is what is seen in the
first one and then what is seen in the second.
-/

namespace Notebook

namespace Entities

/-! ### Counting -/

/-- How often a candidate was counted. -/
def Tally.count (t : Tally) (key : Text) : Nat := (t.get? key).getD 0

/-- The candidates counted one after the other. -/
def Tally.addAll (t : Tally) (keys : List Text) : Tally := keys.foldl (fun t key => t.add key) t

theorem Tally.addAll_append (t : Tally) (keys keys' : List Text) :
    t.addAll (keys ++ keys') = (t.addAll keys).addAll keys' := List.foldl_append

theorem Tally.addAll_concat (t : Tally) (keys : List Text) (key : Text) :
    t.addAll (keys ++ [key]) = (t.addAll keys).add key := t.addAll_append keys [key]

theorem Tally.keys_add (t : Tally) (key : Text) :
    (t.add key).keys = if key ∈ t.keys then t.keys else t.keys ++ [key] :=
  Keyed.keys_insert key _ t

theorem Tally.count_add (t : Tally) (key key' : Text) :
    (t.add key).count key' = t.count key' + if key' = key then 1 else 0 := by
  unfold Tally.count Tally.add
  rw [Keyed.get?_insert]
  by_cases h : key' = key
  · rw [if_pos h, if_pos h, h, Option.getD_some]
  · rw [if_neg h, if_neg h, Nat.add_zero]

theorem Tally.count_addAll (t : Tally) (keys : List Text) (key : Text) :
    (t.addAll keys).count key = t.count key + keys.count key := by
  induction keys generalizing t with
  | nil => rfl
  | cons k keys ih =>
    have hstep : t.addAll (k :: keys) = (t.add k).addAll keys := rfl
    rw [hstep, ih, Tally.count_add, List.count_cons]
    by_cases h : key = k
    · simp [h]
      omega
    · simp [h, Ne.symm h]

/-- The keys that are new come behind the others, in their own order. -/
theorem Tally.keys_addAll (t : Tally) (keys : List Text) :
    (t.addAll keys).keys = t.keys ++ (Tally.addAll [] keys).keys.filter (· ∉ t.keys) := by
  induction keys using List.reverseRecOn with
  | nil => simp [Tally.addAll, Keyed.keys]
  | append_singleton keys key ih =>
    rw [Tally.addAll_concat, Tally.addAll_concat, Tally.keys_add, Tally.keys_add, ih]
    by_cases hnew : key ∈ (Tally.addAll [] keys).keys
    · have hmem : key ∈ t.keys ++ (Tally.addAll [] keys).keys.filter (· ∉ t.keys) := by
        by_cases hold : key ∈ t.keys
        · exact List.mem_append_left _ hold
        · exact List.mem_append_right _ (List.mem_filter.mpr ⟨hnew, decide_eq_true hold⟩)
      rw [if_pos hmem, if_pos hnew]
    · rw [if_neg hnew, List.filter_append]
      by_cases hold : key ∈ t.keys
      · simp [hold]
      · simp [hold, hnew]

/-- A tally without doubles is made of its keys with their counts. -/
theorem Tally.eq_map_count {t : Tally} (h : t.keys.Nodup) :
    t = t.keys.map fun key => (key, t.count key) := by
  unfold Keyed.keys
  rw [List.map_map]
  refine (List.map_id t).symm.trans (List.map_congr_left fun p hp => ?_)
  have hget : t.get? p.1 = some p.2 := Keyed.get?_of_mem h hp
  rw [Function.comp_apply, Tally.count, hget]
  rfl

theorem Tally.length_keys (t : Tally) : t.keys.length = t.length := List.length_map _

/-! ### Seeing -/

/-- What a name is counted as, if it is counted. -/
def nameKeys (name : List (List Letter)) : List Text :=
  if (spaced name).length < 3 || isStopword (small (spaced name)) then [] else [titleCase name]

/-- What a word is counted as, if it is counted. -/
def wordKeys (word : List Letter) : List Text :=
  if word.length < 4 || isStopword (small word) then [] else [titleCase [word]]

theorem countName_eq (name : List (List Letter)) (t : Tally) :
    countName name t = t.addAll (nameKeys name) := by
  unfold countName nameKeys
  split <;> rfl

theorem countWord_eq (word : List Letter) (t : Tally) :
    countWord word t = t.addAll (wordKeys word) := by
  unfold countWord wordKeys
  split <;> rfl

/-- What a run of capitalized words is counted as when it is closed. -/
def runKeys (run : List (List Letter)) (runBegins : Bool) : List Text :=
  match run with
  | [] => []
  | [w] => if runBegins then wordKeys w else nameKeys [w]
  | ws => nameKeys ws

/-- The candidates that are seen from some piece on, as often as they are seen. -/
def sightingsFrom (run : List (List Letter)) (runBegins begins : Bool) : List Piece → List Text
  | [] => runKeys run runBegins
  | .mark c :: ps =>
    runKeys run runBegins ++ sightingsFrom [] runBegins (begins || endsSentence c) ps
  | .word w :: ps =>
    if isCapitalized w then
      sightingsFrom (run ++ [w]) (if run.isEmpty then begins else runBegins) false ps
    else runKeys run runBegins ++ (wordKeys w ++ sightingsFrom [] runBegins false ps)

def sightings (cs : List Letter) : List Text := sightingsFrom [] true true (pieces cs)

theorem tally_closeRun (s : State) :
    (closeRun s).tally = s.tally.addAll (runKeys s.run s.runBegins) := by
  obtain ⟨run, runBegins, begins, t⟩ := s
  match run with
  | [] => rfl
  | [w] =>
    cases runBegins with
    | true => exact countWord_eq w t
    | false => exact countName_eq [w] t
  | w :: v :: run => exact countName_eq (w :: v :: run) t

theorem tally_foldl_step (s : State) (ps : List Piece) :
    (closeRun (ps.foldl step s)).tally =
      s.tally.addAll (sightingsFrom s.run s.runBegins s.begins ps) := by
  induction ps generalizing s with
  | nil => exact tally_closeRun s
  | cons p ps ih =>
    rw [List.foldl_cons, ih]
    cases p with
    | mark c =>
      rw [sightingsFrom, Tally.addAll_append, ← tally_closeRun]
      rfl
    | word w =>
      by_cases hw : isCapitalized w
      · simp only [step, sightingsFrom, if_pos hw]
      · simp only [step, sightingsFrom, if_neg hw]
        rw [Tally.addAll_append, Tally.addAll_append, ← tally_closeRun, ← countWord_eq]
        rfl

/-- A tally counts what is seen. -/
theorem tally_eq (cs : List Letter) : tally cs = Tally.addAll [] (sightings cs) :=
  tally_foldl_step start (pieces cs)

/-! ### Line breaks -/

theorem closeWord_append (word : List Letter) (ps qs : List Piece) :
    closeWord word (ps ++ qs) = closeWord word ps ++ qs := by
  unfold closeWord
  split <;> rfl

theorem pieces_append_break (a b : List Letter) :
    pieces (a ++ .char '\n' :: b) = pieces a ++ .mark (.char '\n') :: pieces b := by
  have hfrom : ∀ word, piecesFrom word (a ++ .char '\n' :: b) =
      piecesFrom word a ++ .mark (.char '\n') :: pieces b := by
    induction a with
    | nil =>
      intro word
      have hno : (isLetter '\n' || (!word.isEmpty && isInner '\n')) = false := by
        have hletter : isLetter '\n' = false := by decide
        have hinner : isInner '\n' = false := by decide
        rw [hletter, hinner, Bool.and_false, Bool.or_false]
      simp only [List.nil_append, piecesFrom]
      rw [hno, ← closeWord_append]
      rfl
    | cons c a ih =>
      intro word
      rw [List.cons_append, piecesFrom, piecesFrom]
      split
      · exact ih _
      · rw [← closeWord_append, ih]
        split <;> rfl
  exact hfrom []

/-- No run is open, so nothing hangs on where one began. -/
theorem sightingsFrom_nil_run (runBegins runBegins' begins : Bool) (ps : List Piece) :
    sightingsFrom [] runBegins begins ps = sightingsFrom [] runBegins' begins ps := by
  induction ps generalizing begins with
  | nil => rfl
  | cons p ps ih =>
    cases p with
    | mark c => exact ih _
    | word w =>
      unfold sightingsFrom
      split
      · rfl
      · rw [ih]
        rfl

theorem sightingsFrom_append_break (run : List (List Letter)) (runBegins begins : Bool)
    (ps qs : List Piece) :
    sightingsFrom run runBegins begins (ps ++ .mark (.char '\n') :: qs) =
      sightingsFrom run runBegins begins ps ++ sightingsFrom [] true true qs := by
  induction ps generalizing run runBegins begins with
  | nil =>
    have hends : (begins || endsSentence '\n') = true := by
      rw [show endsSentence '\n' = true by decide, Bool.or_true]
    rw [List.nil_append, sightingsFrom, sightingsFrom, hends, sightingsFrom_nil_run runBegins true]
  | cons p ps ih =>
    rw [List.cons_append]
    cases p with
    | mark c => rw [sightingsFrom, sightingsFrom, ih, List.append_assoc]
    | word w =>
      rw [sightingsFrom, sightingsFrom]
      split
      · exact ih _ _ _
      · rw [ih, List.append_assoc, List.append_assoc]

theorem sightings_append_break (a b : List Letter) :
    sightings (a ++ .char '\n' :: b) = sightings a ++ sightings b := by
  rw [sightings, pieces_append_break, sightingsFrom_append_break]
  rfl

end Entities

open Entities

/-- The candidates of a text are the keys of its tally, the ones with the highest counts first. -/
theorem entities_eq (limit : Int) (text : Text) :
    entities limit text = headUpTo limit
      (rankBy (fun a b : Nat => b < a) (tally text.toList).count (tally text.toList).keys) := by
  have htally := Tally.eq_map_count (nodup_keys_tally text.toList)
  rw [entities, htally, rankBy_map, headUpTo_map, List.map_map, ← htally]
  exact List.map_id _

/-- A limit that is high enough lets all candidates through. -/
theorem mem_entities_of_length_le {limit : Int} {text : Text}
    (h : (tally text.toList).length ≤ limit) (key : Text) :
    key ∈ entities limit text ↔ key ∈ (tally text.toList).keys := by
  have hlength : (rankBy (fun a b : Nat => b < a) (tally text.toList).count
      (tally text.toList).keys).length ≤ limit := by
    rw [(rankBy_perm _ _ _).length_eq, Tally.length_keys]
    exact h
  rw [entities_eq, headUpTo_of_length_le hlength]
  exact (rankBy_perm _ _ _).mem_iff

end Notebook
