import Mathlib.Data.List.Induction
import SqfLayout.Proofs.Lexeme.Context
import SqfLayout.Proofs.Text.Joined

/-! The lines that a directive covers. A line that ends in a backslash is continued, and the break behind it
belongs to the directive. Breaks are read as everywhere else, except that a carriage return behind a continued
line takes another one along. -/
namespace SqfLayout.Lexeme
open Text (Lacks lacks_cons)

/-- A line break in front of `more`. A carriage return takes the break character behind it along if that
character is one of `taken`. -/
inductive LineBreak (taken : List Char) : Text → Text → Prop
  | feed {more : Text} : LineBreak taken ['\n'] more
  | pair {d : Char} {more : Text} (hd : d ∈ taken) : LineBreak taken ['\r', d] more
  | carriage {more : Text} (hmore : ∀ d ∈ more.head?, d ∉ taken) : LineBreak taken ['\r'] more

/-- A line that is continued: it ends in a backslash, blanks behind the backslash not counted. -/
def Continued (line : Text) : Prop := ∃ front gap, line = front ++ '\\' :: gap ∧ ∀ c ∈ gap, Text.isBlank c = true

/-- A logical line in front of `rest`: lines that are continued, with the breaks behind them, and one more line,
which ends at a break and is not continued, or at the end of the text. -/
inductive LogicalLine (taken : List Char) : Text → Text → Prop
  | last {line rest : Text} (hline : ∀ c ∈ line, Text.isBreak c = false)
      (hrest : ∀ c ∈ rest.head?, Text.isBreak c = true ∧ ¬ Continued line) : LogicalLine taken line rest
  | continued {line brk body rest : Text} (hline : ∀ c ∈ line, Text.isBreak c = false) (hcont : Continued line)
      (hbrk : LineBreak taken brk (body ++ rest)) (h : LogicalLine taken body rest) :
      LogicalLine taken (line ++ brk ++ body) rest

section
variable {line body rest t : Text} {c : Char} {continued : Bool} {taken : List Char}

theorem not_continued_nil : ¬ Continued [] := by
  rintro ⟨front, gap, h, -⟩
  simp at h

theorem continued_concat : Continued (line ++ [c]) ↔ if Text.isBlank c then Continued line else c = '\\' := by
  constructor
  · rintro ⟨front, gap, h, hgap⟩
    cases gap using List.reverseRecOn with
    | nil =>
      obtain ⟨-, rfl⟩ := List.append_inj' h rfl |>.imp_right List.singleton_inj.1
      simp [Text.isBlank]
    | append_singleton gap d =>
      rw [← List.cons_append, ← List.append_assoc] at h
      obtain ⟨rfl, rfl⟩ := List.append_inj' h rfl |>.imp_right List.singleton_inj.1
      rw [if_pos (hgap c (by simp))]
      exact ⟨front, gap, rfl, fun e he => hgap e (by simp [he])⟩
  · split
    · rintro ⟨front, gap, rfl, hgap⟩
      exact ⟨front, gap ++ [c], by simp, by simpa [or_imp, forall_and] using ⟨hgap, by assumption⟩⟩
    · rintro rfl
      exact ⟨line, [], rfl, by simp⟩

private theorem logicalLine_of_line (hline : ∀ d ∈ line, Text.isBreak d = false)
    (hcont : continued = true ↔ Continued line) (ht : t = logicalLine continued t ++ rest) :
    LogicalLine ['\n', '\r'] (line ++ logicalLine continued t) rest := by
  have hnil : false = true ↔ Continued [] := iff_of_false (by simp) not_continued_nil
  have hsingle {d : Char} (hd : Text.isBreak d = false) : ∀ e ∈ [d], Text.isBreak e = false := by simpa using hd
  fun_induction logicalLine continued t generalizing line with
  | case1 =>
    obtain rfl : rest = [] := ht.symm
    exact .last (by simpa using hline) (by simp)
  | case2 continued c hc =>
    obtain rfl : rest = [c] := ht.symm
    obtain ⟨hbreak, hend⟩ : Text.isBreak c = true ∧ continued = false := by simpa using hc
    rw [List.append_nil]
    exact .last hline (by simpa [hbreak, ← hcont] using hend)
  | case3 continued c hc =>
    obtain rfl : rest = [] := by simpa using ht.symm
    by_cases hbreak : Text.isBreak c = true
    · have hcont := hcont.1 (by simpa [hbreak] using hc)
      rw [← List.append_nil (line ++ [c])]
      refine .continued hline hcont ?_ (.last (by simp) (by simp))
      obtain rfl | rfl : c = '\n' ∨ c = '\r' := by simpa [Text.isBreak] using hbreak
      · exact .feed
      · exact .carriage (by simp)
    · exact .last (List.forall_mem_append.2 ⟨hline, hsingle (by simpa using hbreak)⟩) (by simp)
  | case4 d t hbreak ih =>
    have hrest := (List.cons.inj ht).2
    have hbehind := ih (by simp) hnil hrest
    have hall := LogicalLine.continued hline (hcont.1 rfl) .feed hbehind
    simpa using hall
  | case5 c d t hbreak hc ih =>
    obtain rfl : c = '\r' := by simpa [Text.isBreak, hc] using hbreak
    have hrest := (List.cons.inj (List.cons.inj ht).2).2
    by_cases hd : d ∈ ['\n', '\r']
    · -- the character belongs to the break, whichever break character it is
      have hslash : (d == '\\') = false := by
        obtain rfl | rfl : d = '\n' ∨ d = '\r' := by simpa using hd
        all_goals rfl
      rw [hslash] at ih hrest ⊢
      have hbehind := ih (by simp) hnil hrest
      have hall := LogicalLine.continued hline (hcont.1 rfl) (.pair hd) hbehind
      simpa using hall
    · -- the character starts the next line
      have hbreak' : Text.isBreak d = false := by simpa [Text.isBreak] using hd
      have hslash : (d == '\\') = true ↔ Continued [d] := by
        rw [← List.nil_append [d], continued_concat]
        split
        · rename_i hblank
          refine iff_of_false ?_ not_continued_nil
          rintro hd
          rw [eq_of_beq hd] at hblank
          cases hblank
        · exact beq_iff_eq
      have hbehind := ih (hsingle hbreak') hslash hrest
      have hall := LogicalLine.continued hline (hcont.1 rfl) (.carriage (by simpa using hd)) hbehind
      simpa using hall
  | case6 continued c d t hbreak hend =>
    obtain rfl : rest = c :: d :: t := ht.symm
    rw [List.append_nil]
    exact .last hline (by simpa [hbreak, ← hcont] using hend)
  | case7 continued c d t hbreak ih =>
    have hrest := (List.cons.inj ht).2
    rw [List.append_cons]
    refine ih (List.forall_mem_append.2 ⟨hline, hsingle (by simpa using hbreak)⟩) ?_ hrest
    rw [continued_concat]
    split
    · exact hcont
    · exact beq_iff_eq

private theorem LogicalLine.isBreak_head? (h : LogicalLine taken body rest) :
    ∀ c ∈ body.head?, Text.isBreak c = false := by
  cases h with
  | last hline => exact fun c hc => hline c (List.mem_of_mem_head? hc)
  | @continued line brk body _ hline hcont =>
    cases line with
    | nil => exact absurd hcont not_continued_nil
    | cons d line =>
      rintro _ ⟨⟩
      exact hline d List.mem_cons_self

theorem LogicalLine.isBreak_rest (h : LogicalLine taken body rest) : ∀ c ∈ rest.head?, Text.isBreak c = true := by
  induction h with
  | last _ hrest => exact fun c hc => (hrest c hc).1
  | continued _ _ _ _ ih => exact ih

/-- A carriage return that takes another one along shows as two in a row. -/
private theorem LogicalLine.of_lacks (h : LogicalLine ['\n', '\r'] body rest) (hbody : Lacks '\r' '\r' body) :
    LogicalLine ['\n'] body rest := by
  induction h with
  | last hline hrest => exact .last hline hrest
  | @continued line brk body rest hline hcont hbrk h ih =>
    have hbehind : Lacks '\r' '\r' body := fun hmem => hbody (hmem.trans (List.suffix_append _ _).isInfix)
    have hbrk' : LineBreak ['\n'] brk (body ++ rest) := by
      cases hbrk with
      | feed => exact .feed
      | @pair d _ hd =>
        obtain rfl | rfl : d = '\n' ∨ d = '\r' := by simpa using hd
        · exact .pair (by simp)
        · exact absurd ⟨line, body, rfl⟩ hbody
      | carriage hmore =>
        refine .carriage fun d hd hmem => hmore d hd ?_
        rw [List.mem_singleton.1 hmem]
        exact List.mem_cons_self
    exact .continued hline hcont hbrk' (ih hbehind)

private theorem lacks_line_append (hline : ∀ c ∈ line, Text.isBreak c = false) (h : Lacks '\r' '\r' t) :
    Lacks '\r' '\r' (line ++ t) := by
  induction line with
  | nil => exact h
  | cons c line ih =>
    obtain ⟨hc, hline⟩ := List.forall_mem_cons.1 hline
    refine lacks_cons.2 ⟨?_, ih hline⟩
    rintro ⟨rfl, -⟩
    cases hc

theorem LogicalLine.lacks (h : LogicalLine ['\n'] body rest) : Lacks '\r' '\r' body := by
  induction h with
  | last hline => simpa using lacks_line_append hline (t := []) (by simp)
  | @continued line brk body rest hline hcont hbrk h ih =>
    rw [List.append_assoc]
    refine lacks_line_append hline ?_
    cases hbrk with
    | feed => exact lacks_cons.2 ⟨by simp, ih⟩
    | pair hd =>
      obtain rfl := List.mem_singleton.1 hd
      exact lacks_cons.2 ⟨by simp, lacks_cons.2 ⟨by simp, ih⟩⟩
    | carriage =>
      refine lacks_cons.2 ⟨fun hhead => ?_, ih⟩
      cases h.isBreak_head? '\r' hhead.2

/-- Where no carriage return takes another one along, breaks are read as everywhere else. -/
theorem LogicalLine.iff_lacks (h : LogicalLine ['\n', '\r'] body rest) :
    LogicalLine ['\n'] body rest ↔ Lacks '\r' '\r' body :=
  ⟨LogicalLine.lacks, h.of_lacks⟩

end

/-- What a directive covers is its logical line, as breaks are read in it. -/
theorem logicalLine_of_eq {t rest : Text} (ht : t = logicalLine false t ++ rest) :
    LogicalLine ['\n', '\r'] (logicalLine false t) rest := by
  have hnil : ∀ d ∈ ([] : Text), Text.isBreak d = false := by simp
  exact logicalLine_of_line hnil (iff_of_false (by simp) not_continued_nil) ht

end SqfLayout.Lexeme
