import Mathlib.Data.List.TakeWhile
import ServiceBindings.Proofs.Code.Lines
import ServiceBindings.Proofs.Http.Outcome

/-!
# Classifying a status

The lines of the function that classifies a status are read as what they say: arms that are tried
from top to bottom.  Read so, they give a status the outcome of the first response with that very
code, or else of the first one whose range spans it, or else of the first default response.
-/

namespace ServiceBindings

/-! ### Reading arms -/

/-- The number that digits stand for. -/
def readCode? (digits : List Char) : Option Nat :=
  if !digits.isEmpty && digits.all Char.isDigit then some (Nat.ofDigitChars 10 digits 0) else none

/-- The pattern that a text stands for. -/
def StatusPattern.read? (text : List Char) : Option StatusPattern :=
  match text.dropWhile Char.isDigit, text.takeWhile Char.isDigit with
  | ['_'], [] => some .any
  | [], code => (readCode? code).map .exact
  | '.' :: '.' :: '=' :: stop, start => do return .range (← readCode? start) (← readCode? stop)
  | _, _ => none

/-- The outcome that a text stands for, which is that of an arm and ends it. -/
def Outcome.read? (text : List Char) : Option (Option Outcome) :=
  [("Some(super::Outcome::Success),".toList, some success),
    ("Some(super::Outcome::Error),".toList, some error), ("None,".toList, none)].lookup text

/-- The arm that a line stands for. -/
def StatusArm.read? (line : List Char) : Option StatusArm := do
  let pattern ← StatusPattern.read? (line.takeWhile (· ≠ ' '))
  match line.dropWhile (· ≠ ' ') with
  | ' ' :: '=' :: '>' :: ' ' :: rest => return ⟨pattern, ← Outcome.read? rest⟩
  | _ => none

/-- The arms that lines of a function stand for, up to the ends of its blocks. -/
def readArms? : List String → Option (List StatusArm)
  | [] => none
  | line :: rest =>
    match "        ".toList.isPrefixOf? line.toList with
    | some text => do return (← StatusArm.read? text) :: (← readArms? rest)
    | none => if line :: rest = ["    \x7d", "\x7d"] then some [] else none

/-- The arms of a function that classifies a status, from its lines. -/
def readClassify? : List String → Option (List StatusArm)
  | head :: opening :: rest =>
    if head = "pub fn classify(status: u16) -> Option<super::Outcome> \x7b"
        ∧ opening = "    match status \x7b" then
      readArms? rest
    else none
  | _ => none

/-- What a function that classifies a status returns, from its lines. -/
def runClassify? (lines : List String) (status : Nat) : Option (Option Outcome) :=
  (readClassify? lines).map fun arms => classify arms status

/-! ### Reading back -/

theorem isDigit_of_mem_toDigits {n : Nat} {c : Char} (h : c ∈ Nat.toDigits 10 n) :
  c.isDigit = true := by
  apply Nat.isDigit_of_mem_toDigits _ _ h <;> decide

theorem readCode?_toDigits (n : Nat) : readCode? (Nat.toDigits 10 n) = some n := by
  have hall : (Nat.toDigits 10 n).all Char.isDigit = true :=
    List.all_eq_true.mpr fun c hc => isDigit_of_mem_toDigits hc
  simp [readCode?, hall, Nat.toDigits_ne_nil, Nat.ofDigitChars_ten_toDigits]

theorem takeWhile_toDigits_append (n : Nat) (rest : List Char) :
  (Nat.toDigits 10 n ++ rest).takeWhile Char.isDigit
    = Nat.toDigits 10 n ++ rest.takeWhile Char.isDigit :=
  List.takeWhile_append_of_pos fun _ hc => isDigit_of_mem_toDigits hc

theorem dropWhile_toDigits_append (n : Nat) (rest : List Char) :
  (Nat.toDigits 10 n ++ rest).dropWhile Char.isDigit = rest.dropWhile Char.isDigit :=
  List.dropWhile_append_of_pos fun _ hc => isDigit_of_mem_toDigits hc

namespace StatusPattern

theorem toList_text_exact (code : Nat) : (exact code).text.toList = Nat.toDigits 10 code :=
  Nat.toList_repr

theorem toList_text_range (start stop : Nat) :
  (range start stop).text.toList
    = Nat.toDigits 10 start ++ '.' :: '.' :: '=' :: Nat.toDigits 10 stop
  := by
  have hstart : (toString start).toList = Nat.toDigits 10 start := Nat.toList_repr
  have hstop : (toString stop).toList = Nat.toDigits 10 stop := Nat.toList_repr
  rw [text, String.toList_append, String.toList_append, hstart, hstop, List.append_assoc]
  rfl

/-- A pattern is read back from its text. -/
theorem read?_text (pattern : StatusPattern) : read? pattern.text.toList = some pattern := by
  cases pattern with
  | any => rfl
  | exact code =>
      rw [read?, toList_text_exact, ← List.append_nil (Nat.toDigits 10 code),
        takeWhile_toDigits_append, dropWhile_toDigits_append]
      simp [readCode?_toDigits]
  | range start stop =>
      rw [read?, toList_text_range, takeWhile_toDigits_append, dropWhile_toDigits_append]
      simp [readCode?_toDigits]

theorem not_mem_text {x : Char} (hdigit : x.isDigit = false) (hsign : x ∉ ['_', '.', '='])
    (pattern : StatusPattern) :
  x ∉ pattern.text.toList
  := by
  have hdigits (n : Nat) : x ∉ Nat.toDigits 10 n := by
    intro h
    rw [isDigit_of_mem_toDigits h] at hdigit
    cases hdigit
  cases pattern with
  | any =>
      have htext : any.text.toList = ['_'] := by decide
      rw [htext, List.mem_singleton]
      rintro rfl
      apply hsign List.mem_cons_self
  | exact code =>
      rw [toList_text_exact]
      apply hdigits
  | range start stop =>
      rw [toList_text_range]
      simp only [List.mem_cons, List.not_mem_nil, or_false, not_or] at hsign
      simp [hdigits, hsign]

/-- The text of a pattern has no blank in it. -/
theorem blank_not_mem_text (pattern : StatusPattern) : ' ' ∉ pattern.text.toList :=
  pattern.not_mem_text (by decide) (by decide)

end StatusPattern

namespace StatusArm

/-- A line is a pattern, an arrow and an outcome that is read back. -/
theorem exists_toList_line (pattern : StatusPattern) (outcome : Option Outcome) :
  ∃ text, (StatusArm.mk pattern outcome).line.toList
      = pattern.text.toList ++ ' ' :: '=' :: '>' :: ' ' :: text
    ∧ Outcome.read? text = some outcome
  := by
  rcases outcome with _ | _ | _
  · refine ⟨"None,".toList, ?_, by decide⟩
    simp only [line, String.toList_append, List.append_assoc]
    rfl
  · refine ⟨"Some(super::Outcome::Success),".toList, ?_, by decide⟩
    simp only [line, String.toList_append, List.append_assoc]
    rfl
  · refine ⟨"Some(super::Outcome::Error),".toList, ?_, by decide⟩
    simp only [line, String.toList_append, List.append_assoc]
    rfl

/-- An arm is read back from its line. -/
theorem read?_line (arm : StatusArm) : read? arm.line.toList = some arm := by
  obtain ⟨pattern, outcome⟩ := arm
  obtain ⟨text, hline, htext⟩ := exists_toList_line pattern outcome
  have hpattern : ∀ c ∈ pattern.text.toList, decide (c ≠ ' ') = true := by
    intro c hc
    apply decide_eq_true
    rintro rfl
    apply pattern.blank_not_mem_text hc
  rw [read?, hline, List.takeWhile_append_of_pos hpattern, List.dropWhile_append_of_pos hpattern]
  simp [pattern.read?_text, htext]

end StatusArm

theorem readArms?_lines (arms : List StatusArm) :
  readArms? (arms.map (fun arm => "        " ++ arm.line) ++ ["    \x7d", "\x7d"]) = some arms
  := by
  induction arms with
  | nil => rfl
  | cons arm arms ih =>
      have hline : "        ".toList.isPrefixOf? ("        " ++ arm.line).toList
          = some arm.line.toList := by
        rw [String.toList_append]
        rfl
      rw [List.map_cons, List.cons_append, readArms?, hline]
      simp [arm.read?_line, ih]

theorem StatusArm.line_ne_empty (arm : StatusArm) : arm.line ≠ "" := by
  intro hempty
  obtain ⟨text, hline, -⟩ := exists_toList_line arm.pattern arm.outcome
  rw [hempty] at hline
  simp at hline

/-- The lines of the function, with their indentation. -/
theorem classifyLines_eq (arms : List StatusArm) :
  classifyLines arms
    = "pub fn classify(status: u16) -> Option<super::Outcome> \x7b" :: "    match status \x7b"
      :: (arms.map (fun arm => "        " ++ arm.line) ++ ["    \x7d", "\x7d"])
  := by
  have hlines : Code.indent (arms.map StatusArm.line) = arms.map fun arm => "    " ++ arm.line := by
    rw [Code.indent_eq_map, List.map_map]
    · rfl
    · intro line hline
      obtain ⟨arm, -, rfl⟩ := List.mem_map.mp hline
      apply arm.line_ne_empty
  rw [classifyLines, Code.block, Code.block, hlines, Code.indent_eq_map]
  · simp [← String.append_assoc]
  · intro line hline
    rcases List.mem_append.mp hline with hline | hline
    · rcases List.mem_cons.mp hline with rfl | hline
      · decide
      · obtain ⟨arm, -, rfl⟩ := List.mem_map.mp hline
        simp
    · rw [List.mem_singleton.mp hline]
      decide

/-- The function is read back from its lines. -/
theorem readClassify?_classifyLines (arms : List StatusArm) :
  readClassify? (classifyLines arms) = some arms
  := by
  rw [classifyLines_eq, readClassify?, if_pos ⟨rfl, rfl⟩, readArms?_lines]

/-- The lines of the function are one line each. -/
theorem isLine_classifyLines (arms : List StatusArm) :
  ∀ line ∈ classifyLines arms, Text.IsLine line
  := by
  apply Code.isLine_block (by decide) (Code.isLine_block (by decide) _)
  intro line hline
  obtain ⟨arm, -, rfl⟩ := List.mem_map.mp hline
  have hpattern := arm.pattern.not_mem_text (show '\n'.isDigit = false by decide) (by decide)
  apply Text.isLine_append _ (by decide) (by decide)
  split
  case h_1 outcome _ => cases outcome <;> simp [hpattern, Outcome.variant]
  case h_2 => simp [hpattern]

/-! ### Priorities -/

/-- A response decides on a status if some response declares it. -/
theorem isSome_deciding (responses : List HttpResponse) (status : Nat) :
  ((responses.find? fun response => response.status = .exact status).or
      ((responses.find? fun response => response.status.spans status).or
        (responses.find? fun response => response.status = .default))).isSome
    ↔ ∃ response ∈ responses, response.status.declares status ∨ response.status = .default
  := by
  simp only [Option.isSome_or, Bool.or_eq_true, List.find?_isSome, StatusCode.declares,
    decide_eq_true_eq, ← exists_or, ← and_or_left, or_assoc]

/-- Whatever responses are declared, the function that is written for them gives a status the outcome
of the first response with that very code, or else of the first one whose range spans it, or else of
the first default response.  So the statuses with an outcome are those that some response
declares. -/
theorem classifyLines_priority (graph : TypeGraph) (responses : List HttpResponse) (status : Nat) :
  let lines := classifyLines
    (statusArms (responses.map fun response => (response.status, response.outcome graph)))
  runClassify? lines status
      = some (((responses.find? fun response => response.status = .exact status).or
          ((responses.find? fun response => response.status.spans status).or
            (responses.find? fun response => response.status = .default))).map
          (HttpResponse.outcome graph))
    ∧ ((∃ outcome, runClassify? lines status = some (some outcome))
      ↔ ∃ response ∈ responses, response.status.declares status ∨ response.status = .default)
  := by
  intro lines
  have hrun : runClassify? lines status = some (classify
      (statusArms (responses.map fun response => (response.status, response.outcome graph)))
      status) := by
    rw [runClassify?, readClassify?_classifyLines, Option.map_some]
  rw [hrun, classify_responses, ← isSome_deciding]
  refine ⟨rfl, ?_⟩
  simp only [Option.some.injEq, ← Option.isSome_iff_exists, Option.isSome_map]

/-- A code counts more than a range, a range more than the default response, and the first one of a
kind more than the others. -/
example :
  let lines := classifyLines (statusArms [(.default, .error), (.range 200 299, .success),
    (.exact 204, .error), (.range 250 499, .error), (.exact 204, .success)])
  [204, 250, 300, 500].map (runClassify? lines)
    = [some (some .error), some (some .success), some (some .error), some (some .error)]
  := by
  decide +kernel

end ServiceBindings
