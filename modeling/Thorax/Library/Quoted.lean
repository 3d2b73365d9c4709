import Mathlib

/-!
# Quoted text

Text in which an escape takes the next character literally and a quote opens or closes a run. The
scanners here split such text at the delimiters outside of runs and take the quoting off. What a
scanner does with a text depends only on the state it starts in, so a text that leaves the state as
it was can be read on its own, wherever it stands.
-/

namespace Quoted

/-- The characters with a meaning of their own. -/
structure Marks (α : Type) where
  escape : α
  quote : α
  distinct : escape ≠ quote

/-- Where a scanner is: in a run or not, after an escape or not. -/
structure State where
  inQuote : Bool
  escaped : Bool
  deriving DecidableEq

def start : State := ⟨false, false⟩

section Scanners

variable {α : Type} [DecidableEq α] (marks : Marks α)

def step (state : State) (c : α) : State :=
  if state.escaped then { state with escaped := false }
  else if c = marks.escape then { state with escaped := true }
  else if c = marks.quote then { state with inQuote := !state.inQuote }
  else state

/-- A delimiter counts outside of runs, and not after an escape. -/
def cuts (delim : α) (state : State) (c : α) : Bool :=
  !state.escaped && decide (c ≠ marks.escape) && decide (c ≠ marks.quote) && decide (c = delim) &&
    !state.inQuote

/-- The state after a text. -/
def run (state : State) (text : List α) : State := text.foldl (step marks) state

/-- Split at the first delimiter that counts. -/
def splitOnceFrom (delim : α) (state : State) : List α → Option (List α × List α)
  | [] => none
  | c :: rest =>
    if cuts marks delim state c then some ([], rest)
    else (splitOnceFrom delim (step marks state c) rest).map fun halves => (c :: halves.1, halves.2)

def splitOnce (delim : α) (text : List α) : Option (List α × List α) :=
  splitOnceFrom marks delim start text

/-- Split at each delimiter that counts, with the part that has been read so far. -/
def splitFrom (delim : α) : State → List α → List α → List (List α)
  | _, part, [] => [part.reverse]
  | state, part, c :: rest =>
    if cuts marks delim state c then part.reverse :: splitFrom delim (step marks state c) [] rest
    else splitFrom delim (step marks state c) (c :: part) rest

def split (delim : α) (text : List α) : List (List α) := splitFrom marks delim start [] text

/-- A character stands for itself, unless it is an escape or a quote that counts. -/
def keeps (state : State) (c : α) : Bool :=
  state.escaped || (decide (c ≠ marks.escape) && decide (c ≠ marks.quote))

/-- The text without its quoting. -/
def decodeFrom (state : State) : List α → List α
  | [] => []
  | c :: rest =>
    if keeps marks state c then c :: decodeFrom (step marks state c) rest
    else decodeFrom (step marks state c) rest

/-- Take the quoting off, unless it is left open. -/
def decode (text : List α) : Option (List α) :=
  if run marks start text = start then some (decodeFrom marks start text) else none

/-- Escape what counts within a run. -/
def protect (text : List α) : List α :=
  text.flatMap fun c => if c = marks.quote ∨ c = marks.escape then [marks.escape, c] else [c]

/-- One run that stands for a text. -/
def quoted (text : List α) : List α := marks.quote :: (protect marks text ++ [marks.quote])

/-- A text that can be read on its own and does not split. -/
structure Whole (delim : α) (text : List α) : Prop where
  closed : run marks start text = start
  unsplit : splitOnce marks delim text = none

end Scanners

/-! ### Texts after each other -/

section Append

variable {α : Type} [DecidableEq α] {marks : Marks α} {delim c : α} {state : State}
variable {text rest : List α}

@[simp] lemma run_nil : run marks state [] = state := rfl

@[simp] lemma run_cons : run marks state (c :: text) = run marks (step marks state c) text := rfl

lemma run_append : run marks state (text ++ rest) = run marks (run marks state text) rest :=
  List.foldl_append

/-- A scanner that finds nothing in a text goes on after it. -/
lemma splitOnceFrom_append (h : splitOnceFrom marks delim state text = none) :
    splitOnceFrom marks delim state (text ++ rest) =
      (splitOnceFrom marks delim (run marks state text) rest).map fun halves =>
        (text ++ halves.1, halves.2) := by
  induction text generalizing state with
  | nil => simp
  | cons c text ih =>
    simp only [splitOnceFrom, List.cons_append] at h ⊢
    split_ifs at h ⊢ with hcuts
    rw [Option.map_eq_none_iff] at h
    rw [ih h, Option.map_map, run_cons]
    rfl

lemma decodeFrom_append : decodeFrom marks state (text ++ rest) =
    decodeFrom marks state text ++ decodeFrom marks (run marks state text) rest := by
  induction text generalizing state with
  | nil => rfl
  | cons c text ih =>
    simp only [decodeFrom, List.cons_append, run_cons]
    split_ifs
    · rw [ih, List.cons_append]
    · rw [ih]

/-- Decoding leaves characters out. -/
lemma decodeFrom_sublist : (decodeFrom marks state text).Sublist text := by
  induction text generalizing state with
  | nil => exact List.Sublist.refl _
  | cons c text ih =>
    rw [decodeFrom]
    split_ifs
    · exact ih.cons_cons c
    · exact ih.cons c

/-- Where a text is split, the delimiter counts and nothing before it does. -/
lemma splitOnceFrom_eq_some {halves : List α × List α} :
    splitOnceFrom marks delim state text = some halves ↔
      text = halves.1 ++ delim :: halves.2 ∧
        splitOnceFrom marks delim state halves.1 = none ∧
          cuts marks delim (run marks state halves.1) delim = true := by
  obtain ⟨before, after⟩ := halves
  induction text generalizing state before with
  | nil => simp [splitOnceFrom]
  | cons c text ih =>
    simp only [splitOnceFrom]
    split_ifs with hcuts
    · have hdelim : c = delim := by
        simp only [cuts, Bool.and_eq_true, decide_eq_true_eq] at hcuts
        exact hcuts.1.2
      constructor
      · intro h
        obtain ⟨rfl, rfl⟩ := Prod.mk.inj (Option.some.inj h)
        exact ⟨by rw [hdelim]; rfl, rfl, hdelim ▸ hcuts⟩
      · rintro ⟨htext, hnone, -⟩
        cases before with
        | nil =>
          obtain ⟨-, rfl⟩ := List.cons.inj htext
          rfl
        | cons d before =>
          obtain ⟨rfl, -⟩ := List.cons.inj htext
          simp [splitOnceFrom, hcuts] at hnone
    · rw [Option.map_eq_some_iff]
      constructor
      · rintro ⟨⟨half, other⟩, hhalves, heq⟩
        obtain ⟨rfl, rfl⟩ := Prod.mk.inj heq
        obtain ⟨rfl, hnone, hcut⟩ := (ih _).mp hhalves
        exact ⟨rfl, by simp [splitOnceFrom, hcuts, hnone], hcut⟩
      · rintro ⟨htext, hnone, hcut⟩
        cases before with
        | nil =>
          obtain ⟨rfl, -⟩ := List.cons.inj htext
          exact absurd hcut hcuts
        | cons d before =>
          obtain ⟨rfl, rfl⟩ := List.cons.inj htext
          simp only [splitOnceFrom, hcuts, Bool.false_eq_true, if_false,
            Option.map_eq_none_iff] at hnone
          exact ⟨(before, after), (ih before).mpr ⟨rfl, hnone, hcut⟩, rfl⟩

/-- Splitting everywhere is splitting once, and again after it. -/
lemma splitFrom_eq (part : List α) : splitFrom marks delim state part text =
    match splitOnceFrom marks delim state text with
    | none => [part.reverse ++ text]
    | some (before, after) =>
      (part.reverse ++ before) :: splitFrom marks delim (run marks state (before ++ [delim])) []
        after := by
  induction text generalizing state part with
  | nil => simp [splitFrom, splitOnceFrom]
  | cons c text ih =>
    simp only [splitFrom, splitOnceFrom]
    split_ifs with hcuts
    · have hdelim : c = delim := by
        simp only [cuts, Bool.and_eq_true, decide_eq_true_eq] at hcuts
        exact hcuts.1.2
      simp [hdelim]
    · rw [ih]
      cases splitOnceFrom marks delim (step marks state c) text with
      | none => simp
      | some halves => simp

end Append

/-! ### Whole texts -/

section Wholes

variable {α : Type} [DecidableEq α] {marks : Marks α} {delim c : α}
variable {text rest : List α} {parts : List (List α)}

lemma cuts_start : cuts marks delim start c = true ↔
    c = delim ∧ c ≠ marks.escape ∧ c ≠ marks.quote := by
  simp [cuts, start]
  tauto

/-- A delimiter that counts leaves the scanner at the start. -/
lemma state_of_cuts {state : State} (h : cuts marks delim state delim = true) :
    state = start ∧ step marks state delim = start := by
  obtain ⟨inQuote, escaped⟩ := state
  simp only [cuts, Bool.and_eq_true, Bool.not_eq_true', decide_eq_true_eq] at h
  obtain ⟨⟨⟨⟨rfl, hescape⟩, hquote⟩, -⟩, rfl⟩ := h
  exact ⟨rfl, by simp [step, hescape, hquote, start]⟩

/-- The half before a split is whole. -/
lemma splitOnce_eq_some {before after : List α} :
    splitOnce marks delim text = some (before, after) ↔
      text = before ++ delim :: after ∧ Whole marks delim before ∧
        delim ≠ marks.escape ∧ delim ≠ marks.quote := by
  rw [splitOnce, splitOnceFrom_eq_some]
  constructor
  · rintro ⟨htext, hnone, hcuts⟩
    obtain ⟨hstart, -⟩ := state_of_cuts hcuts
    rw [hstart] at hcuts
    exact ⟨htext, ⟨hstart, hnone⟩, (cuts_start.mp hcuts).2⟩
  · rintro ⟨htext, hwhole, hmarks⟩
    refine ⟨htext, hwhole.unsplit, ?_⟩
    rw [hwhole.closed, cuts_start]
    exact ⟨rfl, hmarks⟩

/-- Splitting a text that is left open nowhere. -/
lemma split_eq : split marks delim text =
    match splitOnce marks delim text with
    | none => [text]
    | some (before, after) => before :: split marks delim after := by
  rw [split, splitFrom_eq, splitOnce]
  cases hsplit : splitOnceFrom marks delim start text with
  | none => rfl
  | some halves =>
    obtain ⟨before, after⟩ := halves
    obtain ⟨-, -, hcuts⟩ := splitOnceFrom_eq_some.mp hsplit
    have hstate : run marks start (before ++ [delim]) = start := by
      rw [run_append]
      exact (state_of_cuts hcuts).2
    simp only [hstate]
    rfl

lemma whole_nil : Whole marks delim [] := ⟨rfl, rfl⟩

lemma Whole.append (h : Whole marks delim text) (h' : Whole marks delim rest) :
    Whole marks delim (text ++ rest) := by
  refine ⟨by rw [run_append, h.closed, h'.closed], ?_⟩
  have hrest := h'.unsplit
  rw [splitOnce] at hrest ⊢
  rw [splitOnceFrom_append h.unsplit, h.closed, hrest]
  rfl

lemma Whole.intercalate {separator : List α} (hseparator : Whole marks delim separator)
    (hparts : ∀ part ∈ parts, Whole marks delim part) :
    Whole marks delim (List.intercalate separator parts) := by
  induction parts with
  | nil => exact whole_nil
  | cons part parts ih =>
    obtain ⟨hpart, hparts⟩ := List.forall_mem_cons.mp hparts
    cases parts with
    | nil =>
      rw [List.intercalate_singleton]
      exact hpart
    | cons other parts =>
      rw [List.intercalate_cons_cons]
      exact (hpart.append hseparator).append (ih hparts)

/-- Text without marks and delimiters is whole, and stands for itself. -/
lemma whole_of_plain (hmarks : ∀ c ∈ text, c ≠ marks.escape ∧ c ≠ marks.quote)
    (hdelim : delim ∉ text) : Whole marks delim text := by
  have hstep : ∀ c, c ≠ marks.escape ∧ c ≠ marks.quote → step marks start c = start := by
    rintro c ⟨hescape, hquote⟩
    simp [step, start, hescape, hquote]
  induction text with
  | nil => exact whole_nil
  | cons c text ih =>
    obtain ⟨hc, hmarks⟩ := List.forall_mem_cons.mp hmarks
    obtain ⟨hne, hdelim⟩ := not_or.mp (mt List.mem_cons.mpr hdelim)
    obtain ⟨hclosed, hunsplit⟩ := ih hmarks hdelim
    rw [splitOnce] at hunsplit
    refine ⟨by rw [run_cons, hstep c hc, hclosed], ?_⟩
    rw [splitOnce, splitOnceFrom, if_neg (mt cuts_start.mp fun h => hne h.1.symm), hstep c hc,
      hunsplit]
    rfl

lemma decode_of_plain (hmarks : ∀ c ∈ text, c ≠ marks.escape ∧ c ≠ marks.quote) :
    decode marks text = some text := by
  have hstep : ∀ c, c ≠ marks.escape ∧ c ≠ marks.quote →
      step marks start c = start ∧ keeps marks start c = true := by
    rintro c ⟨hescape, hquote⟩
    simp [step, keeps, start, hescape, hquote]
  have hscan : run marks start text = start ∧ decodeFrom marks start text = text := by
    induction text with
    | nil => exact ⟨rfl, rfl⟩
    | cons c text ih =>
      obtain ⟨hc, hmarks⟩ := List.forall_mem_cons.mp hmarks
      obtain ⟨hclosed, hdecode⟩ := ih hmarks
      rw [run_cons, decodeFrom, (hstep c hc).1, if_pos (hstep c hc).2, hdecode]
      exact ⟨hclosed, rfl⟩
  rw [decode, if_pos hscan.1, hscan.2]

variable (marks delim) in
/-- Within a run, protected text is read as it was. -/
lemma protect_scan (text : List α) :
    run marks ⟨true, false⟩ (protect marks text) = ⟨true, false⟩ ∧
      decodeFrom marks ⟨true, false⟩ (protect marks text) = text ∧
      splitOnceFrom marks delim ⟨true, false⟩ (protect marks text) = none := by
  induction text with
  | nil => exact ⟨rfl, rfl, rfl⟩
  | cons c text ih =>
    obtain ⟨hclosed, hdecode, hunsplit⟩ := ih
    by_cases hmark : c = marks.quote ∨ c = marks.escape
    · have hprotect : protect marks (c :: text) = marks.escape :: c :: protect marks text := by
        simp [protect, hmark]
      rw [hprotect]
      simp [step, keeps, decodeFrom, splitOnceFrom, cuts, hclosed, hdecode, hunsplit]
    · have hprotect : protect marks (c :: text) = c :: protect marks text := by
        simp [protect, hmark]
      obtain ⟨hquote, hescape⟩ := not_or.mp hmark
      rw [hprotect]
      simp [step, keeps, decodeFrom, splitOnceFrom, cuts, hescape, hquote, hclosed, hdecode,
        hunsplit]

/-- A run is whole at any delimiter, and stands for what it quotes. -/
lemma whole_quoted (text : List α) : Whole marks delim (quoted marks text) := by
  obtain ⟨hclosed, -, hunsplit⟩ := protect_scan marks delim text
  have hopen : step marks start marks.quote = ⟨true, false⟩ := by
    simp [step, start, marks.distinct.symm]
  refine ⟨?_, ?_⟩
  · rw [quoted, run_cons, hopen, run_append, hclosed]
    simp [step, start, marks.distinct.symm]
  · rw [splitOnce, quoted, splitOnceFrom, if_neg (by simp [cuts]), hopen,
      splitOnceFrom_append hunsplit, hclosed]
    simp [splitOnceFrom, cuts]

lemma decode_quoted (text : List α) : decode marks (quoted marks text) = some text := by
  obtain ⟨hclosed, hdecode, -⟩ := protect_scan marks marks.quote text
  have hopen : step marks start marks.quote = ⟨true, false⟩ := by
    simp [step, start, marks.distinct.symm]
  have hwhole : Whole marks marks.quote (quoted marks text) := whole_quoted text
  rw [decode, if_pos hwhole.closed, quoted, decodeFrom, if_neg (by simp [keeps, start]), hopen,
    decodeFrom_append, hdecode, hclosed]
  simp [decodeFrom, keeps]

/-- Whole texts with delimiters between them are split into themselves. -/
lemma split_intercalate (hescape : delim ≠ marks.escape) (hquote : delim ≠ marks.quote)
    (hparts : parts ≠ []) (hwhole : ∀ part ∈ parts, Whole marks delim part) :
    split marks delim (List.intercalate [delim] parts) = parts := by
  induction parts with
  | nil => exact absurd rfl hparts
  | cons part parts ih =>
    obtain ⟨hpart, hwhole⟩ := List.forall_mem_cons.mp hwhole
    cases parts with
    | nil => rw [List.intercalate_singleton, split_eq, hpart.unsplit]
    | cons other parts =>
      have hsplit : splitOnce marks delim (List.intercalate [delim] (part :: other :: parts)) =
          some (part, List.intercalate [delim] (other :: parts)) :=
        splitOnce_eq_some.mpr ⟨by simp [List.intercalate], hpart, hescape, hquote⟩
      rw [split_eq, hsplit]
      simp only [ih (List.cons_ne_nil _ _) hwhole]

variable (marks delim) in
lemma split_ne_nil (text : List α) : split marks delim text ≠ [] := by
  rw [split_eq]
  split <;> exact List.cons_ne_nil _ _

/-- Put together again, the parts of a text are the text. -/
lemma intercalate_split (text : List α) : List.intercalate [delim] (split marks delim text) = text := by
  induction hlength : text.length using Nat.strong_induction_on generalizing text with
  | _ length ih =>
    rw [split_eq]
    cases hsplit : splitOnce marks delim text with
    | none => exact List.intercalate_singleton
    | some halves =>
      obtain ⟨before, after⟩ := halves
      obtain ⟨rfl, -⟩ := splitOnce_eq_some.mp hsplit
      have hafter := ih after.length (by simp [← hlength]; omega) after rfl
      obtain ⟨part, parts, hparts⟩ := List.exists_cons_of_ne_nil
        (split_ne_nil marks delim after)
      simp only [hparts] at hafter ⊢
      rw [List.intercalate_cons_cons, hafter, List.append_assoc]
      rfl

/-- The parts of a text do not split any further. -/
lemma unsplit_of_mem_split {part : List α} (h : part ∈ split marks delim text) :
    splitOnce marks delim part = none := by
  induction hlength : text.length using Nat.strong_induction_on generalizing text with
  | _ length ih =>
    rw [split_eq] at h
    cases hsplit : splitOnce marks delim text with
    | none =>
      simp only [hsplit, List.mem_singleton] at h
      rw [h, hsplit]
    | some halves =>
      obtain ⟨before, after⟩ := halves
      simp only [hsplit, List.mem_cons] at h
      obtain ⟨rfl, hbefore, -⟩ := splitOnce_eq_some.mp hsplit
      rcases h with rfl | h
      · exact hbefore.unsplit
      · exact ih after.length (by simp [← hlength]; omega) h rfl

end Wholes

end Quoted
