import SqfLayout.Proofs.Lexeme.Context
import SqfLayout.Proofs.Text.Joined

/-! What a lexeme may hold. -/
namespace SqfLayout

/-- The kinds of token that are a lexeme as they stand. -/
def Token.Kind.isVerbatim : Token.Kind → Bool
  | .lineComment | .command | .number | .operator | .leftBracket | .rightBracket | .leftBrace
  | .rightBrace | .leftParen | .rightParen | .comma | .semicolon | .space => true
  | _ => false

namespace Lexeme
open Text (Lacks lacks_cons)

/-- The quotes that open a string. -/
def quotes : List Char := ['"', '\'']

/-- A text in which quotes stand in pairs only. -/
inductive Doubled (quote : Char) : Text → Prop
  | nil : Doubled quote []
  | other {c : Char} {t : Text} (hc : c ≠ quote) (ht : Doubled quote t) : Doubled quote (c :: t)
  | pair {t : Text} (ht : Doubled quote t) : Doubled quote (quote :: quote :: t)

/-- A lexeme that can be read from some text. -/
inductive WellFormed : Lexeme → Prop
  | breaks {c : Char} {run : Text} (hc : Text.isBreak c = true) (hrun : ∀ d ∈ run, isRun d = true) :
      WellFormed (.breaks (c :: run))
  | inclusion {gap : Text} {style : PathStyle} {path : Text} (hgap : ∀ c ∈ gap, Text.isBlank c = true)
      (hpath : ∀ c ∈ path, style.holds c = true) : WellFormed (.inclusion gap style path)
  | directive {body : Text} : WellFormed (.directive body)
  | blockComment {body : Text} (hbody : Lacks '*' '/' body) : WellFormed (.blockComment body)
  | string {quote : Char} {body : Text} (hquote : quote ∈ quotes) (hbody : Doubled quote body) :
      WellFormed (.string quote body)
  | plain {kind : Token.Kind} {text : Text} (hkind : kind.isVerbatim = true) (hne : text ≠ [])
      (hline : ∀ c ∈ text, Text.isBreak c = false) : WellFormed (.plain kind text)

theorem commentBody_cons (c : Char) (t : Text) : commentBody (c :: t) =
    if c = '*' ∧ t.head? = some '/' then some [] else (commentBody t).map (c :: ·) := by
  cases t <;> simp [commentBody]

private theorem head?_of_isPrefix {a t : Text} {c : Char} (h : a <+: t) (ha : a.head? = some c) :
    t.head? = some c := by
  obtain ⟨more, rfl⟩ := h
  obtain ⟨rest, rfl⟩ := List.head?_eq_some_iff.1 ha
  rfl

theorem lacks_of_commentBody {t body : Text} (h : commentBody t = some body) : Lacks '*' '/' body := by
  induction t generalizing body with
  | nil => cases h
  | cons c t ih =>
    rw [commentBody_cons] at h
    split at h
    · cases h
      exact Text.lacks_nil
    · rename_i hc
      obtain ⟨b, hb, rfl⟩ := Option.map_eq_some_iff.1 h
      refine lacks_cons.2 ⟨fun hhead => hc ⟨hhead.1, ?_⟩, ih hb⟩
      exact head?_of_isPrefix ((List.prefix_append _ _).trans (commentBody_isPrefix hb)) hhead.2

theorem lacks_of_commentBody_none {t : Text} (h : commentBody t = none) : Lacks '*' '/' t := by
  induction t with
  | nil => exact Text.lacks_nil
  | cons c t ih =>
    rw [commentBody_cons] at h
    split at h
    · cases h
    · rename_i hc
      exact lacks_cons.2 ⟨hc, ih (Option.map_eq_none_iff.1 h)⟩

theorem doubled_of_stringBody {quote : Char} {t body : Text} (h : stringBody quote t = some body) :
    Doubled quote body := by
  fun_induction stringBody quote t generalizing body with
  | case1 => cases h
  | case2 => cases h; exact .nil
  | case3 => cases h
  | case4 rest ih =>
    obtain ⟨b, hb, rfl⟩ := Option.map_eq_some_iff.1 h
    exact .pair (ih hb)
  | case5 => cases h; exact .nil
  | case6 c d rest hc ih =>
    obtain ⟨b, hb, rfl⟩ := Option.map_eq_some_iff.1 h
    exact .other hc (ih hb)

theorem doubled_of_stringBody_none {quote : Char} {t : Text} (h : stringBody quote t = none) :
    Doubled quote t := by
  fun_induction stringBody quote t with
  | case1 => exact .nil
  | case2 => cases h
  | case3 c hc => exact .other hc .nil
  | case4 rest ih => exact .pair (ih (Option.map_eq_none_iff.1 h))
  | case5 => cases h
  | case6 c d rest hc ih => exact .other hc (ih (Option.map_eq_none_iff.1 h))

theorem exists_line (t : Text) : ∃ line rest, t = line ++ rest ∧
    (∀ c ∈ line, Text.isBreak c = false) ∧ (∀ c ∈ rest.head?, Text.isBreak c = true) := by
  refine ⟨t.takeWhile (!Text.isBreak ·), t.dropWhile (!Text.isBreak ·),
    List.takeWhile_append_dropWhile.symm, ?_, ?_⟩
  · simpa using List.all_eq_true.1 (List.all_takeWhile (p := (!Text.isBreak ·)) (l := t))
  · simpa using head?_dropWhile_eq_false (!Text.isBreak ·) t

private theorem number_line {c : Char} {t : Text} (hc : Text.isBreak c = false) :
    ∀ d ∈ number (c :: t), Text.isBreak d = false := by
  obtain ⟨line, rest, rfl, hline, hrest⟩ := exists_line t
  have hnumber : number (c :: (line ++ rest)) = number (c :: line) := by
    cases rest with
    | nil => rw [List.append_nil]
    | cons k rest => exact number_append line (mem_bars_of_isBreak (hrest k rfl))
  intro d hd
  rw [hnumber] at hd
  have hmem : d ∈ c :: line := (number_isPrefix _).subset hd
  obtain rfl | hd := List.mem_cons.1 hmem
  · exact hc
  · exact hline d hd

private theorem operator_line {c : Char} (hc : c ∈ operatorCharacters) (t : Text) :
    ∀ d ∈ operator c t, Text.isBreak d = false := by
  have hfirst : ∀ c ∈ operatorCharacters, Text.isBreak c = false := by
    simp [operatorCharacters, Text.isBreak]
  have hsecond : ∀ pair ∈ operatorPairs, Text.isBreak pair.2 = false := by
    simp [operatorPairs, Text.isBreak]
  unfold operator
  split
  · split
    · rename_i hpair
      simpa [hfirst c hc] using hsecond _ hpair
    · simpa using hfirst c hc
  · simpa using hfirst c hc

private theorem isBreak_of_isCommand {c : Char} (hc : isCommand c = true) :
    Text.isBreak c = false := by
  have hno : ∀ d ∈ ['\n', '\r'], isCommand d = false := by
    simp only [List.forall_mem_cons]
    exact ⟨by decide, by decide, by simp⟩
  refine Bool.eq_false_iff.2 fun hbreak => ?_
  have := hno c (by simpa [Text.isBreak] using hbreak)
  simp [hc] at this

private theorem isBreak_of_startsNumber {c : Char} {t : Text} (hc : startsNumber c t = true) :
    Text.isBreak c = false := by
  refine Bool.eq_false_iff.2 fun hbreak => ?_
  have hbar := mem_bars_of_isBreak hbreak
  simp [startsNumber, isDigit_bar c hbar, ne_bar hbar (c := '.') (by decide),
    ne_bar hbar (c := '$') (by decide)] at hc

private theorem isBreak_of_mark? {c : Char} {kind : Token.Kind} (h : mark? c = some kind) :
    Text.isBreak c = false := by
  refine Bool.eq_false_iff.2 fun hbreak => ?_
  simp only [Text.isBreak, Bool.or_eq_true, beq_iff_eq] at hbreak
  rcases hbreak with rfl | rfl <;> cases h

private theorem isVerbatim_of_mark? {c : Char} {kind : Token.Kind} (h : mark? c = some kind) :
    kind.isVerbatim = true := by
  unfold mark? at h
  grind [Token.Kind.isVerbatim]

theorem wellFormed_of_readInclusion {rest : Text} {x : Lexeme}
    (h : readInclusion rest = .ok x) : x.WellFormed := by
  unfold readInclusion at h
  split at h
  · cases h
  · split at h
    · cases h
    · split at h
      · cases h
        exact .inclusion (List.all_eq_true.1 List.all_takeWhile) (List.all_eq_true.1 List.all_takeWhile)
      · cases h

private theorem wellFormed_of_readDirective {rest : Text} {x : Lexeme}
    (h : readDirective rest = .ok x) : x.WellFormed := by
  unfold readDirective at h
  split at h
  · exact wellFormed_of_readInclusion h
  · cases h
    exact .directive

theorem read_wellFormed {lineStart : Bool} {c : Char} {rest : Text} {x : Lexeme}
    (h : read lineStart c rest = .ok x) : x.WellFormed := by
  have hne := (read_isPrefix h).2
  have hwhile {p : Char → Bool} (hp : ∀ d, p d = true → Text.isBreak d = false) :
      ∀ d ∈ (c :: rest).takeWhile p, Text.isBreak d = false :=
    fun d hd => hp d (List.all_eq_true.1 List.all_takeWhile d hd)
  cases reads_of_read h with
  | breaks hc =>
    rw [List.takeWhile_cons_of_pos (by simp [isRun, hc])]
    exact .breaks hc (List.all_eq_true.1 List.all_takeWhile)
  | space => exact .plain rfl hne (hwhile fun d => isBreak_eq_false_of_isBlank)
  | directive _ hx => exact wellFormed_of_readDirective hx
  | blockComment _ _ hbody => exact .blockComment (lacks_of_commentBody hbody)
  | lineComment => exact .plain rfl hne (hwhile fun d hd => by simpa using hd)
  | string hc hbody => exact .string (by simpa [quotes] using hc) (doubled_of_stringBody hbody)
  | number hc => exact .plain rfl hne (number_line (isBreak_of_startsNumber hc))
  | command => exact .plain rfl hne (hwhile fun d => isBreak_of_isCommand)
  | mark hkind =>
    exact .plain (isVerbatim_of_mark? hkind) hne (List.forall_mem_singleton.2 (isBreak_of_mark? hkind))
  | operator hc => exact .plain rfl hne (operator_line hc rest)

end Lexeme
end SqfLayout
