import SqfLayout.Proofs.Lexeme.Locality
import SqfLayout.Proofs.Lexeme.LogicalLine
import SqfLayout.Proofs.Lexeme.NumberLiteral
import SqfLayout.Proofs.Token.Scanning

/-! The lexeme that stands at the start of a text, and the problem that stands there where no lexeme does. Both are
told by what the text holds, not by how it is read; reading finds the one or the other. -/
namespace SqfLayout.Lexeme
open Text (Lacks takeWhile_append_of_head? dropWhile_append_of_head?)

/-- A lexeme that stands in front of `more`. It goes as far as it can, and a directive stands only where a line
starts. -/
inductive Stands (lineStart : Bool) : Lexeme → Text → Prop
  | breaks {c : Char} {run more : Text} (hc : Text.isBreak c = true) (hrun : ∀ d ∈ run, isRun d = true)
      (hmore : ∀ d ∈ more.head?, isRun d = false) : Stands lineStart (.breaks (c :: run)) more
  | space {c : Char} {run more : Text} (hrun : ∀ d ∈ c :: run, Text.isBlank d = true)
      (hmore : ∀ d ∈ more.head?, Text.isBlank d = false) : Stands lineStart (.plain .space (c :: run)) more
  | inclusion {gap : Text} {style : PathStyle} {path more : Text} (hstart : lineStart = true)
      (hgap : ∀ c ∈ gap, Text.isBlank c = true) (hpath : ∀ c ∈ path, style.holds c = true) :
      Stands lineStart (.inclusion gap style path) more
  | directive {body more : Text} (hstart : lineStart = true)
      (hname : body.takeWhile isDirectiveWord ≠ "include") (hbody : LogicalLine ['\n', '\r'] body more) :
      Stands lineStart (.directive body) more
  | blockComment {body more : Text} (hbody : Lacks '*' '/' body) : Stands lineStart (.blockComment body) more
  | lineComment {line more : Text} (hline : ∀ c ∈ line, Text.isBreak c = false)
      (hmore : ∀ c ∈ more.head?, Text.isBreak c = true) :
      Stands lineStart (.plain .lineComment ('/' :: '/' :: line)) more
  | string {quote : Char} {body more : Text} (hquote : quote ∈ quotes) (hbody : Doubled quote body)
      (hmore : more.head? ≠ some quote) : Stands lineStart (.string quote body) more
  | number {literal more : Text} (hliteral : LongestBeginning IsNumber literal (literal ++ more))
      (hbare : ¬ StartsBareMark (literal ++ more)) : Stands lineStart (.plain .number literal) more
  | bareMark {x : Char} {more : Text} (hx : x = 'x' ∨ x = 'X')
      (hmore : ∀ d ∈ more.head?, Text.isHexDigit d = false) : Stands lineStart (.plain .number ['0', x]) more
  | command {c : Char} {word more : Text} (hc : Text.isLetter c = true ∨ c = '_')
      (hword : ∀ d ∈ word, isCommand d = true) (hmore : ∀ d ∈ more.head?, isCommand d = false) :
      Stands lineStart (.plain .command (c :: word)) more
  | mark {c : Char} {kind : Token.Kind} {more : Text} (hkind : mark? c = some kind) :
      Stands lineStart (.plain kind [c]) more
  | pair {c d : Char} {more : Text} (hpair : (c, d) ∈ operatorPairs) :
      Stands lineStart (.plain .operator [c, d]) more
  | operator {c : Char} {more : Text} (hc : c ∈ operatorCharacters) (hhash : c = '#' → lineStart = false)
      (hslash : c = '/' → ∀ d ∈ more.head?, d ≠ '*' ∧ d ≠ '/')
      (halone : ∀ d ∈ more.head?, (c, d) ∉ operatorPairs) : Stands lineStart (.plain .operator [c]) more

/-- A problem that stands behind the part `before` of a lexeme, where `rest` follows. -/
inductive Blames (lineStart : Bool) : LexicalProblem → Text → Text → Prop
  | comment {rest : Text} (hrest : Lacks '*' '/' rest) :
      Blames lineStart .unterminatedComment [] ('/' :: '*' :: rest)
  | string {quote : Char} {rest : Text} (hquote : quote ∈ quotes) (hrest : Doubled quote rest) :
      Blames lineStart .unterminatedString [] (quote :: rest)
  | inclusion {gap : Text} {style : PathStyle} {path rest : Text} (hstart : lineStart = true)
      (hgap : ∀ c ∈ gap, Text.isBlank c = true) (hpath : ∀ c ∈ path, style.holds c = true)
      (hrest : ∀ c ∈ rest.head?, Text.isBreak c = true) :
      Blames lineStart .unterminatedInclude "#" ("include" ++ gap ++ style.opening :: path ++ rest)
  | malformed {gap rest : Text} (hstart : lineStart = true) (hgap : ∀ c ∈ gap, Text.isBlank c = true)
      (hname : gap = [] → ∀ c ∈ rest.head?, isDirectiveWord c = false)
      (hrest : ∀ c ∈ rest.head?, Text.isBlank c = false ∧ c ≠ '"' ∧ c ≠ '<') :
      Blames lineStart .malformedInclude ("#include" ++ gap) rest
  | unexpected {c : Char} {rest : Text} (hrun : isRun c = false) (hquote : c ∉ quotes)
      (hletter : Text.isLetter c = false) (hline : c ≠ '_') (hnumber : startsNumber c rest = false)
      (hmark : mark? c = none) (hoperator : c ∉ operatorCharacters) :
      Blames lineStart (.unexpected c) [] (c :: rest)

section
variable {lineStart : Bool} {c : Char} {t body rest more line : Text} {x : Lexeme} {continued : Bool}

theorem commentBody_eq_none_iff : commentBody t = none ↔ Lacks '*' '/' t := by
  refine ⟨lacks_of_commentBody_none, fun hlacks => ?_⟩
  cases hbody : commentBody t with
  | none => rfl
  | some body =>
    have hprefix : body ++ ['*', '/'] <+: t := by simpa using commentBody_isPrefix hbody
    exact absurd ((List.suffix_append body ['*', '/']).isInfix.trans hprefix.isInfix) hlacks

private theorem Doubled.stringBody_eq {quote : Char} (h : Doubled quote body) (hmore : more.head? ≠ some quote) :
    stringBody quote (body ++ quote :: more) = some body := by
  induction h with
  | nil =>
    cases more with
    | nil => simp [stringBody]
    | cons d more =>
      have hd : d ≠ quote := by simpa using hmore
      simp [stringBody, hd]
  | @other c t hc _ ih =>
    obtain ⟨d, u, hcons⟩ := List.exists_cons_of_ne_nil (l := t ++ quote :: more) (by simp)
    rw [List.cons_append, hcons, stringBody, if_neg hc, ← hcons, ih]
    rfl
  | pair _ ih => rw [List.cons_append, List.cons_append, stringBody, if_pos rfl, if_pos rfl, ih, Option.map_some]

theorem stringBody_eq_none_iff {quote : Char} : stringBody quote t = none ↔ Doubled quote t := by
  refine ⟨doubled_of_stringBody_none, fun h => ?_⟩
  induction h with
  | nil => rfl
  | @other c t hc _ ih =>
    cases t with
    | nil => rw [stringBody, if_neg hc]
    | cons d t => rw [stringBody, if_neg hc, ih, Option.map_none]
  | pair _ ih => rw [stringBody, if_pos rfl, if_pos rfl, ih, Option.map_none]

/-- A line without breaks is taken whole, and what is known behind it is whether it is continued. -/
private theorem exists_logicalLine_append (hline : ∀ d ∈ line, Text.isBreak d = false) {front : Text}
    (hcont : continued = true ↔ Continued front) (t : Text) : ∃ continued' : Bool,
      (continued' = true ↔ Continued (front ++ line)) ∧
      logicalLine continued (line ++ t) = line ++ logicalLine continued' t := by
  induction line generalizing front continued with
  | nil => exact ⟨continued, by simpa using hcont, rfl⟩
  | cons c line ih =>
    obtain ⟨hc, hline⟩ := List.forall_mem_cons.1 hline
    have hnext : (if Text.isBlank c then continued else c == '\\') = true ↔ Continued (front ++ [c]) := by
      rw [continued_concat]
      split
      · exact hcont
      · exact beq_iff_eq
    obtain ⟨continued', hcont', htaken⟩ := ih hline hnext
    refine ⟨continued', by simpa using hcont', ?_⟩
    rw [List.cons_append, logicalLine_cons hc, htaken]
    rfl

private theorem LogicalLine.logicalLine_eq (h : LogicalLine ['\n', '\r'] body rest) :
    logicalLine false (body ++ rest) = body := by
  have hnil : false = true ↔ Continued [] := iff_of_false (by simp) not_continued_nil
  induction h with
  | @last line rest hline hrest =>
    obtain ⟨continued, hcont, htaken⟩ := exists_logicalLine_append hline hnil rest
    have hstops : logicalLine continued rest = [] := by
      cases rest with
      | nil => rfl
      | cons k m =>
        obtain ⟨hbreak, hends⟩ := hrest k rfl
        exact logicalLine_eq_nil_iff.2 ⟨hbreak, by simpa using mt hcont.1 hends⟩
    rw [htaken, hstops, List.append_nil]
  | @continued line brk body rest hline hcontinued hbrk _ ih =>
    obtain ⟨continued, hcont, htaken⟩ := exists_logicalLine_append hline hnil (brk ++ (body ++ rest))
    obtain rfl : continued = true := hcont.2 hcontinued
    rw [List.append_assoc, List.append_assoc, htaken, List.append_assoc]
    congr 1
    generalize body ++ rest = t at hbrk ih
    cases hbrk with
    | feed => cases t <;> simpa [logicalLine, Text.isBreak] using ih
    | @pair d _ hd =>
      have hslash : (d == '\\') = false := by
        obtain rfl | rfl : d = '\n' ∨ d = '\r' := by simpa using hd
        all_goals rfl
      simpa [logicalLine, Text.isBreak, hslash] using ih
    | carriage hmore =>
      cases t with
      | nil => simpa [logicalLine, Text.isBreak] using ih
      | cons d t =>
        have hd : Text.isBreak d = false := by simpa [Text.isBreak] using hmore d rfl
        have hslash : (if Text.isBlank d then false else d == '\\') = (d == '\\') := by
          split
          · rename_i hblank
            refine Eq.symm (beq_eq_false_iff_ne.2 ?_)
            rintro rfl
            cases hblank
          · rfl
        rw [logicalLine_cons hd, hslash] at ih
        simpa [logicalLine, Text.isBreak] using ih

private theorem isLetter_eq_false_of_lt (h : c.toNat < 65) : Text.isLetter c = false := by
  unfold Text.isLetter Text.alphabetic
  rw [Ranges.contains, if_pos h]

private theorem read_command (hc : Text.isLetter c = true ∨ c = '_') (t : Text) :
    read lineStart c t = .ok (.plain .command ((c :: t).takeWhile isCommand)) := by
  have hother : ∀ d : Char, d.toNat < 65 → c ≠ d := by
    rintro d hd rfl
    obtain hc | rfl := hc
    · rw [isLetter_eq_false_of_lt hd] at hc
      cases hc
    · exact absurd hd (by decide)
  have hdigit : c.isDigit = false := by
    refine Bool.eq_false_iff.2 fun hdigit => ?_
    have hlt : c.toNat < 65 := by
      have hbound : c.val ≤ '9'.val := of_decide_eq_true (Bool.and_eq_true_iff.1 hdigit).2
      exact Nat.lt_of_le_of_lt (UInt32.le_iff_toNat_le.1 hbound) (by decide)
    exact hother c hlt rfl
  have hbreak : Text.isBreak c = false := by simp [Text.isBreak, hother '\n' (by decide), hother '\r' (by decide)]
  have hblank : Text.isBlank c = false := by simp [Text.isBlank, hother ' ' (by decide), hother '\t' (by decide)]
  have hnumber : startsNumber c t = false := by
    simp [startsNumber, hdigit, hother '.' (by decide), hother '$' (by decide)]
  unfold read
  simp [hbreak, hblank, hnumber, hc, hother '#' (by decide), hother '/' (by decide), hother '"' (by decide),
    hother '\'' (by decide)]

private theorem read_operator (hc : c ∈ operatorCharacters) (hhash : c = '#' → lineStart = false)
    (hslash : c = '/' → ∀ d ∈ rest.head?, d ≠ '*' ∧ d ≠ '/') :
    read lineStart c rest = .ok (.plain .operator (operator c rest)) := by
  have hother : ∀ c ∈ operatorCharacters, decide (Text.isBreak c = false ∧ Text.isBlank c = false ∧
      c ∉ ['"', '\'', '.', '$', '_'] ∧ c.isDigit = false ∧ Text.isLetter c = false ∧ mark? c = none) = true :=
    List.all_eq_true.1 (by decide)
  obtain ⟨hbreak, hblank, hno, hdigit, hletter, hmark⟩ := of_decide_eq_true (hother c hc)
  simp only [List.mem_cons, List.not_mem_nil, or_false, not_or] at hno
  have hstar : ¬ (c = '/' ∧ rest.head? = some '*') := fun h => (hslash h.1 _ h.2).1 rfl
  have hline : ¬ (c = '/' ∧ rest.head? = some '/') := fun h => (hslash h.1 _ h.2).2 rfl
  have hdirective : ¬ (c = '#' ∧ lineStart = true) := fun h => by simp [hhash h.1] at h
  unfold read
  rw [if_neg (by simp [hbreak]), if_neg (by simp [hblank]), if_neg hdirective, if_neg hstar, if_neg hline,
    if_neg (by simp [hno]), if_neg (by simp [startsNumber, hdigit, hno]), if_neg (by simp [hletter, hno]), hmark]
  exact if_pos hc

private theorem isDirectiveWord_eq_false (hc : isRun c = true ∨ c ∈ quotes ∨ c = '<') :
    isDirectiveWord c = false := by
  have hrun : ∀ c ∈ ['\n', '\r', ' ', '\t', '"', '\'', '<'], isDirectiveWord c = false := by
    simp [isDirectiveWord]
  refine hrun c ?_
  simp only [isRun, Text.isBreak, Text.isBlank, quotes, Bool.or_eq_true, beq_iff_eq, List.mem_cons,
    List.not_mem_nil, or_false] at hc ⊢
  grind

private theorem head?_gap {gap : Text} (hgap : ∀ c ∈ gap, Text.isBlank c = true)
    (hrest : gap = [] → ∀ c ∈ rest.head?, isDirectiveWord c = false) :
    ∀ c ∈ (gap ++ rest).head?, isDirectiveWord c = false := by
  cases gap with
  | nil => exact hrest rfl
  | cons d gap =>
    rintro _ ⟨⟩
    exact isDirectiveWord_eq_false (.inl (by simp [isRun, hgap d List.mem_cons_self]))

private theorem isDirectiveWord_opening (style : PathStyle) (t : Text) :
    ∀ c ∈ (style.opening :: t).head?, isDirectiveWord c = false := by
  rintro _ ⟨⟩
  cases style <;> decide

private theorem LogicalLine.takeWhile_word (h : LogicalLine ['\n', '\r'] body rest) :
    (body ++ rest).takeWhile isDirectiveWord = body.takeWhile isDirectiveWord := by
  cases rest with
  | nil => rw [List.append_nil]
  | cons k rest =>
    have hk : isRun k = true := by simp [isRun, h.isBreak_rest k rfl]
    exact takeWhile_append_stop body rest (isDirectiveWord_eq_false (.inl hk))

private theorem readDirective_include (hrest : ∀ c ∈ rest.head?, isDirectiveWord c = false) :
    readDirective ("include" ++ rest) = readInclusion rest := by
  have hname : ∀ d ∈ ("include" : Text), isDirectiveWord d = true := by simp [isDirectiveWord]
  unfold readDirective
  rw [takeWhile_append_of_head? hname hrest, dropWhile_append_of_head? hname hrest, if_pos rfl]

private theorem Stands.read_eq (h : Stands lineStart x more) (hwhole : c :: rest = x.text ++ more) :
    read lineStart c rest = .ok x := by
  cases h with
  | @breaks d run _ hc hrun hmore =>
    obtain ⟨rfl, rfl⟩ : c = d ∧ rest = run ++ more := List.cons.inj hwhole
    have hall : ∀ e ∈ c :: run, isRun e = true := List.forall_mem_cons.2 ⟨by simp [isRun, hc], hrun⟩
    rw [read_breaks hc, ← List.cons_append, takeWhile_append_of_head? hall hmore]
  | @space d run _ hrun hmore =>
    obtain ⟨rfl, rfl⟩ : c = d ∧ rest = run ++ more := List.cons.inj hwhole
    exact read_blanks hrun hmore
  | @inclusion gap style path _ hstart hgap hpath =>
    obtain ⟨rfl, rfl⟩ : c = '#' ∧ rest = "include" ++ (gap ++ style.opening :: (path ++ style.closing :: more)) := by
      simpa [text] using hwhole
    have hhead := head?_gap hgap fun _ => isDirectiveWord_opening style (path ++ style.closing :: more)
    have hread := readInclusion_written hgap hpath more
    subst hstart
    show readDirective _ = _
    rw [readDirective_include hhead]
    simpa using hread
  | @directive body _ hstart hname hbody =>
    obtain ⟨rfl, rfl⟩ : c = '#' ∧ rest = body ++ more := List.cons.inj hwhole
    subst hstart
    show readDirective _ = _
    rw [readDirective, hbody.takeWhile_word, if_neg hname, hbody.logicalLine_eq]
  | @blockComment body _ hbody =>
    obtain ⟨rfl, rfl⟩ : c = '/' ∧ rest = '*' :: (body ++ '*' :: '/' :: more) := by simpa [text] using hwhole
    exact read_comment hbody
  | @lineComment line _ hline hmore =>
    obtain ⟨rfl, rfl⟩ : c = '/' ∧ rest = '/' :: (line ++ more) := by simpa using hwhole
    have hall : ∀ e ∈ '/' :: '/' :: line, (!Text.isBreak e) = true := by
      simpa [Text.isBreak] using hline
    have htaken : ('/' :: '/' :: (line ++ more)).takeWhile (fun e => !Text.isBreak e) = '/' :: '/' :: line :=
      takeWhile_append_of_head? hall (by simpa using hmore)
    simp [read, Text.isBreak, Text.isBlank, ← htaken]
  | @string quote body _ hquote hbody hmore =>
    obtain ⟨rfl, rfl⟩ : c = quote ∧ rest = body ++ quote :: more := by simpa [text] using hwhole
    have htaken := hbody.stringBody_eq hmore
    have hquote : c = '"' ∨ c = '\'' := by simpa [quotes] using hquote
    obtain rfl | rfl := hquote <;> simp [read, Text.isBreak, Text.isBlank, htaken]
  | @number literal _ hliteral hbare =>
    obtain ⟨d, ds, rfl, hstarts⟩ := hliteral.holds.exists_cons
    obtain ⟨rfl, rfl⟩ : c = d ∧ rest = ds ++ more := List.cons.inj hwhole
    have hstarts' : startsNumber c (ds ++ more) = true := by
      cases ds with
      | nil => cases more <;> simp_all [startsNumber]
      | cons => exact hstarts
    have hlongest := (longest_number_iff hstarts').2 hbare
    have hsame : Lexeme.number (c :: (ds ++ more)) = c :: ds :=
      (hliteral.longest _ hlongest.holds hlongest.isPrefix).eq_of_length_le
        (hlongest.longest _ hliteral.holds hliteral.isPrefix).length_le
    rw [read_number hstarts', hsame]
  | @bareMark mark _ hx hmore =>
    obtain ⟨rfl, rfl⟩ : c = '0' ∧ rest = mark :: more := by simpa using hwhole
    have htaken : more.takeWhile Text.isHexDigit = [] := by
      simpa using @takeWhile_append_of_head? _ [] more Text.isHexDigit (by simp) hmore
    rw [read_number rfl, number_of_mark hx, htaken]
  | @command d word _ hc hword hmore =>
    obtain ⟨rfl, rfl⟩ : c = d ∧ rest = word ++ more := List.cons.inj hwhole
    have hall : ∀ e ∈ c :: word, isCommand e = true := by
      refine List.forall_mem_cons.2 ⟨?_, hword⟩
      obtain hc | rfl := hc
      · simp [isCommand, Text.isLetterOrNumber, hc]
      · simp [isCommand]
    rw [read_command hc, ← List.cons_append, takeWhile_append_of_head? hall hmore]
  | mark hkind =>
    obtain ⟨rfl, rfl⟩ := List.cons.inj hwhole
    exact read_mark hkind _
  | @pair d e _ hpair =>
    obtain ⟨rfl, rfl⟩ : c = d ∧ rest = e :: more := by simpa using hwhole
    have hfirst : ∀ p ∈ operatorPairs, p.1 ∈ operatorCharacters ∧ p.1 ≠ '#' ∧ p.1 ≠ '/' := by decide
    obtain ⟨hc, hhash, hslash⟩ := hfirst _ hpair
    rw [read_operator hc (fun h => absurd h hhash) (fun h => absurd h hslash), Lexeme.operator, if_pos hpair]
  | @operator d _ hc hhash hslash halone =>
    obtain ⟨rfl, rfl⟩ : c = d ∧ rest = more := by simpa using hwhole
    have hsingle : Lexeme.operator c rest = [c] := by
      cases rest with
      | nil => rfl
      | cons e rest => exact if_neg (halone e rfl)
    rw [read_operator hc hhash hslash, hsingle]

private theorem Blames.read_eq {problem : LexicalProblem} {before : Text} (h : Blames lineStart problem before more)
    (hwhole : c :: rest = before ++ more) : read lineStart c rest = .error ⟨problem, before⟩ := by
  cases h with
  | @comment u hlacks =>
    obtain ⟨rfl, rfl⟩ : c = '/' ∧ rest = '*' :: u := by simpa using hwhole
    rw [read_slash_star, commentBody_eq_none_iff.2 hlacks]
  | @string quote u hquote hdoubled =>
    obtain ⟨rfl, rfl⟩ : c = quote ∧ rest = u := by simpa using hwhole
    have hnone := stringBody_eq_none_iff.2 hdoubled
    have hquote : c = '"' ∨ c = '\'' := by simpa [quotes] using hquote
    obtain rfl | rfl := hquote <;> simp [read, Text.isBreak, Text.isBlank, hnone]
  | @inclusion gap style path u hstart hgap hpath hend =>
    obtain ⟨rfl, rfl⟩ : c = '#' ∧ rest = "include" ++ (gap ++ style.opening :: (path ++ u)) := by
      simpa using hwhole
    subst hstart
    have hopening : Text.isBlank style.opening = false ∧ PathStyle.ofOpening? style.opening = some style := by
      cases style <;> decide
    have hhead := head?_gap hgap fun _ => isDirectiveWord_opening style (path ++ u)
    have hopen : (gap ++ style.opening :: (path ++ u)).dropWhile Text.isBlank = style.opening :: (path ++ u) :=
      dropWhile_append_of_head? hgap (by simpa using hopening.1)
    have hleft : (path ++ u).dropWhile style.holds = u :=
      dropWhile_append_of_head? hpath fun e he => by simp [PathStyle.holds, hend e he]
    have hclose : u.head? ≠ some style.closing := by
      intro hhead
      have hbreak := hend _ hhead
      cases style <;> cases hbreak
    show readDirective _ = _
    rw [readDirective_include hhead, readInclusion, hopen]
    simp [hopening.2, hleft, hclose]
  | @malformed gap _ hstart hgap hname hend =>
    obtain ⟨rfl, rfl⟩ : c = '#' ∧ rest = "include" ++ (gap ++ more) := by simpa using hwhole
    subst hstart
    have hblank : ∀ e ∈ more.head?, Text.isBlank e = false := fun e he => (hend e he).1
    show readDirective _ = _
    rw [readDirective_include (head?_gap hgap hname), readInclusion, takeWhile_append_of_head? hgap hblank,
      dropWhile_append_of_head? hgap hblank]
    cases more with
    | nil => rfl
    | cons e more =>
      obtain ⟨-, hquote, hangle⟩ := hend e rfl
      simp [PathStyle.ofOpening?, hquote, hangle]
  | @unexpected d _ hrun hquote hletter hline hnumber hmark hoperator =>
    obtain ⟨rfl, rfl⟩ : c = d ∧ rest = _ := by simpa using hwhole
    obtain ⟨hbreak, hblank⟩ : Text.isBreak c = false ∧ Text.isBlank c = false := by simpa [isRun] using hrun
    have hother : c ≠ '#' ∧ c ≠ '/' := by
      constructor <;> rintro rfl <;> exact hoperator (by decide)
    have hquote : ¬ (c = '"' ∨ c = '\'') := by simpa [quotes] using hquote
    unfold read
    rw [if_neg (by simp [hbreak]), if_neg (by simp [hblank]), if_neg (by simp [hother]), if_neg (by simp [hother]),
      if_neg (by simp [hother]), if_neg hquote, if_neg (by simp [hnumber]), if_neg (by simp [hletter, hline]), hmark]
    exact if_neg hoperator

private theorem head?_of_stringBody {quote : Char} (h : stringBody quote t = some body)
    (ht : t = body ++ quote :: more) : more.head? ≠ some quote := by
  fun_induction stringBody quote t generalizing body with
  | case1 => cases h
  | case2 =>
    cases h
    obtain rfl : more = [] := by simpa using ht.symm
    simp
  | case3 => cases h
  | case4 rest ih =>
    obtain ⟨b, hb, rfl⟩ := Option.map_eq_some_iff.1 h
    exact ih hb (by simpa using ht)
  | case5 d rest hd =>
    cases h
    obtain rfl : more = d :: rest := by simpa using ht.symm
    simpa using hd
  | case6 c d rest _ ih =>
    obtain ⟨b, hb, rfl⟩ := Option.map_eq_some_iff.1 h
    exact ih hb (by simpa using ht)

/-- What stands at the start of a text: a lexeme, or a problem. -/
inductive Found (lineStart : Bool) (t : Text) : Prop
  | lexeme {x : Lexeme} {more : Text} (ht : t = x.text ++ more) (hx : Stands lineStart x more)
  | problem {problem : LexicalProblem} {before rest : Text} (ht : t = before ++ rest)
      (hproblem : Blames lineStart problem before rest)

private theorem found_inclusion (hrest : ∀ c ∈ rest.head?, isDirectiveWord c = false) :
    Found true ("#include" ++ rest) := by
  have hgap : ∀ c ∈ rest.takeWhile Text.isBlank, Text.isBlank c = true :=
    List.all_eq_true.1 List.all_takeWhile
  have hsplit := List.takeWhile_append_dropWhile (p := Text.isBlank) (l := rest)
  have hblank := head?_dropWhile_eq_false Text.isBlank rest
  generalize rest.takeWhile Text.isBlank = gap at hgap hsplit
  generalize rest.dropWhile Text.isBlank = t at hsplit hblank
  subst hsplit
  have hname (hnil : gap = []) : ∀ c ∈ t.head?, isDirectiveWord c = false := by simpa [hnil] using hrest
  have hmalformed (ht : ∀ c ∈ t.head?, c ≠ '"' ∧ c ≠ '<') : Found true ("#include" ++ (gap ++ t)) :=
    .problem (List.append_assoc _ _ _).symm (.malformed rfl hgap hname fun c hc => ⟨hblank c hc, ht c hc⟩)
  cases t with
  | nil => exact hmalformed (by simp)
  | cons c t =>
    cases hstyle : PathStyle.ofOpening? c with
    | none =>
      refine hmalformed ?_
      rintro _ ⟨⟩
      simp only [PathStyle.ofOpening?] at hstyle
      grind
    | some style =>
      obtain rfl := opening_of_ofOpening? hstyle
      have hpath : ∀ c ∈ t.takeWhile style.holds, style.holds c = true := List.all_eq_true.1 List.all_takeWhile
      have hsplit := List.takeWhile_append_dropWhile (p := style.holds) (l := t)
      have hstops := head?_dropWhile_eq_false style.holds t
      generalize t.takeWhile style.holds = path at hpath hsplit
      generalize t.dropWhile style.holds = u at hsplit hstops
      subst hsplit
      by_cases hclose : u.head? = some style.closing
      · obtain ⟨more, rfl⟩ := List.head?_eq_some_iff.1 hclose
        have hstands : Stands true (.inclusion gap style path) more := .inclusion rfl hgap hpath
        exact .lexeme (by simp [text]) hstands
      · have hblames : Blames true .unterminatedInclude "#" ("include" ++ gap ++ style.opening :: path ++ u) := by
          refine .inclusion rfl hgap hpath fun k hk => ?_
          have hne : k ≠ style.closing := by
            rintro rfl
            exact hclose hk
          simpa [PathStyle.holds, hne] using hstops k hk
        exact .problem (by simp) hblames

private theorem found_directive (t : Text) : Found true ('#' :: t) := by
  by_cases hname : t.takeWhile isDirectiveWord = "include"
  · have hsplit := List.takeWhile_append_dropWhile (p := isDirectiveWord) (l := t)
    have hfound := found_inclusion (head?_dropWhile_eq_false isDirectiveWord t)
    rw [hname] at hsplit
    rw [← hsplit]
    simpa using hfound
  · obtain ⟨rest, hrest⟩ := logicalLine_isPrefix false t
    have hbody := logicalLine_of_eq hrest.symm
    have hstands : Stands true (.directive (logicalLine false t)) rest := by
      refine .directive rfl (fun hinclude => hname ?_) hbody
      rw [← hinclude, ← hbody.takeWhile_word, hrest]
    exact .lexeme (by simp [text, hrest]) hstands

private theorem found_comment (t : Text) : Found lineStart ('/' :: '*' :: t) := by
  cases hbody : commentBody t with
  | none => exact .problem rfl (.comment (lacks_of_commentBody_none hbody))
  | some body =>
    obtain ⟨more, rfl⟩ := commentBody_isPrefix hbody
    have hstands : Stands lineStart (.blockComment body) more := .blockComment (lacks_of_commentBody hbody)
    exact .lexeme (by simp [text]) hstands

private theorem found_string (hc : c ∈ quotes) (t : Text) : Found lineStart (c :: t) := by
  cases hbody : stringBody c t with
  | none => exact .problem rfl (.string hc (doubled_of_stringBody_none hbody))
  | some body =>
    obtain ⟨more, hmore⟩ := stringBody_isPrefix hbody
    have hwhole : t = body ++ c :: more := by simpa using hmore.symm
    have hstands : Stands lineStart (.string c body) more :=
      .string hc (doubled_of_stringBody hbody) (head?_of_stringBody hbody hwhole)
    exact .lexeme (by simp [text, hwhole]) hstands

private theorem found_number (hc : startsNumber c t = true) : Found lineStart (c :: t) := by
  by_cases hbare : StartsBareMark (c :: t)
  · obtain ⟨x, more, hx, hwhole, hmore⟩ := hbare
    exact .lexeme (by simpa using hwhole) (.bareMark hx hmore)
  · have hlongest := (longest_number_iff hc).2 hbare
    obtain ⟨more, hmore⟩ := number_isPrefix (c :: t)
    rw [← hmore] at hbare
    exact .lexeme hmore.symm (.number (by rwa [hmore]) hbare)

private theorem found_operator (hc : c ∈ operatorCharacters) (hhash : c = '#' → lineStart = false)
    (hslash : c = '/' → ∀ d ∈ t.head?, d ≠ '*' ∧ d ≠ '/') : Found lineStart (c :: t) := by
  by_cases hpair : ∃ d ∈ t.head?, (c, d) ∈ operatorPairs
  · obtain ⟨d, hd, hpair⟩ := hpair
    obtain ⟨u, rfl⟩ := List.head?_eq_some_iff.1 (Option.mem_def.1 hd)
    exact .lexeme rfl (.pair hpair)
  · exact .lexeme rfl (.operator hc hhash hslash fun d hd h => hpair ⟨d, hd, h⟩)

/-- A text starts with a lexeme or a problem. -/
private theorem found (lineStart : Bool) (c : Char) (t : Text) : Found lineStart (c :: t) := by
  have hrun (p : Char → Bool) : c :: t = c :: t.takeWhile p ++ t.dropWhile p := by simp
  have hall (p : Char → Bool) : ∀ d ∈ t.takeWhile p, p d = true := List.all_eq_true.1 List.all_takeWhile
  have hends (p : Char → Bool) := head?_dropWhile_eq_false p t
  -- The cases come in the order in which a reader asks for them; an operator is what no other case took.
  by_cases hbreak : Text.isBreak c = true
  · exact .lexeme (hrun isRun) (.breaks hbreak (hall isRun) (hends isRun))
  by_cases hblank : Text.isBlank c = true
  · exact .lexeme (hrun Text.isBlank) (.space (List.forall_mem_cons.2 ⟨hblank, hall Text.isBlank⟩) (hends Text.isBlank))
  by_cases hdirective : c = '#' ∧ lineStart = true
  · obtain ⟨rfl, rfl⟩ := hdirective
    exact found_directive t
  by_cases hcomment : c = '/' ∧ t.head? = some '*'
  · obtain ⟨rfl, hstar⟩ := hcomment
    obtain ⟨u, rfl⟩ := List.head?_eq_some_iff.1 hstar
    exact found_comment u
  by_cases hline : c = '/' ∧ t.head? = some '/'
  · obtain ⟨rfl, hslash⟩ := hline
    obtain ⟨u, rfl⟩ := List.head?_eq_some_iff.1 hslash
    obtain ⟨line, rest, rfl, hline, hrest⟩ := exists_line u
    exact .lexeme (by simp) (.lineComment hline hrest)
  by_cases hquote : c ∈ quotes
  · exact found_string hquote t
  by_cases hnumber : startsNumber c t = true
  · exact found_number hnumber
  by_cases hword : Text.isLetter c = true ∨ c = '_'
  · exact .lexeme (hrun isCommand) (.command hword (hall isCommand) (hends isCommand))
  cases hmark : mark? c with
  | some kind => exact .lexeme rfl (.mark hmark)
  | none =>
    by_cases hoperator : c ∈ operatorCharacters
    · refine found_operator hoperator ?_ fun hslash d hd => ⟨?_, ?_⟩
      · rintro rfl
        simpa using hdirective
      · rintro rfl
        exact hcomment ⟨hslash, hd⟩
      · rintro rfl
        exact hline ⟨hslash, hd⟩
    · simp only [not_or] at hword
      exact .problem rfl (.unexpected (by simp [isRun, hbreak, hblank]) hquote (by simpa using hword.1) hword.2
        (by simpa using hnumber) hmark hoperator)

/-- A lexeme is read where it stands, and nowhere else. -/
theorem read_eq_ok_iff :
    read lineStart c rest = .ok x ↔ ∃ more, c :: rest = x.text ++ more ∧ Stands lineStart x more := by
  refine ⟨fun h => ?_, fun ⟨more, hwhole, hx⟩ => hx.read_eq hwhole⟩
  cases found lineStart c rest with
  | lexeme hwhole hx =>
    obtain rfl := Except.ok.inj (h.symm.trans (hx.read_eq hwhole))
    exact ⟨_, hwhole, hx⟩
  | problem hwhole hproblem => cases h.symm.trans (hproblem.read_eq hwhole)

/-- Reading fails at a problem, and only there. -/
theorem read_eq_error_iff {stuck : Stuck} : read lineStart c rest = .error stuck ↔
    ∃ more, c :: rest = stuck.before ++ more ∧ Blames lineStart stuck.problem stuck.before more := by
  refine ⟨fun h => ?_, fun ⟨more, hwhole, hproblem⟩ => hproblem.read_eq hwhole⟩
  cases found lineStart c rest with
  | lexeme hwhole hx => cases h.symm.trans (hx.read_eq hwhole)
  | problem hwhole hproblem =>
    obtain rfl := Except.error.inj (h.symm.trans (hproblem.read_eq hwhole))
    exact ⟨_, hwhole, hproblem⟩

private theorem Stands.text_ne_nil (h : Stands lineStart x more) : x.text ≠ [] := by
  cases h with
  | number hliteral =>
    obtain ⟨c, rest, rfl, -⟩ := hliteral.holds.exists_cons
    exact List.cons_ne_nil c rest
  | _ => simp [text]

private theorem Blames.ne_nil {problem : LexicalProblem} {before : Text} (h : Blames lineStart problem before rest) :
    before ++ rest ≠ [] := by
  cases h with
  | comment | string | unexpected => exact List.cons_ne_nil _ _
  | inclusion | malformed => simp

/-- Lexemes that stand one behind the other at the start of a text, and what is left of the text behind them. A line
starts behind a run of line breaks. -/
inductive Leads : Bool → Text → List Lexeme → Bool → Text → Prop
  | nil {lineStart : Bool} {t : Text} : Leads lineStart t [] lineStart t
  | cons {lineStart lineStart' : Bool} {x : Lexeme} {more rest : Text} {xs : List Lexeme}
      (hx : Stands lineStart x more) (hxs : Leads x.isBreaks more xs lineStart' rest) :
      Leads lineStart (x.text ++ more) (x :: xs) lineStart' rest

theorem Leads.eq_append {lineStart' : Bool} {xs : List Lexeme} (h : Leads lineStart t xs lineStart' rest) :
    t = xs.flatMap text ++ rest := by
  induction h with
  | nil => rfl
  | cons _ _ ih => rw [ih, List.flatMap_cons, List.append_assoc, ← ih]

/-- A text cannot be cut if and only if lexemes lead to a problem in it; that is where the fault lies. -/
theorem cut_eq_error_iff {p : Position} {fault : LexicalFault} : cut p lineStart t = .error fault ↔
    ∃ xs lineStart' before rest, Leads lineStart t xs lineStart' (before ++ rest) ∧
      Blames lineStart' fault.problem before rest ∧ fault.position = p.advance (xs.flatMap text ++ before) := by
  constructor
  · intro h
    fun_induction cut p lineStart t generalizing fault with
    | case1 => cases h
    | case2 p lineStart c rest stuck hread =>
      cases h
      obtain ⟨more, hwhole, hproblem⟩ := read_eq_error_iff.1 hread
      exact ⟨[], lineStart, stuck.before, more, hwhole ▸ .nil, hproblem, rfl⟩
    | case3 p lineStart c rest x hread fault' hcut ih =>
      cases h
      obtain ⟨more, hwhole, hx⟩ := read_eq_ok_iff.1 hread
      rw [hwhole, List.drop_left] at ih hcut
      obtain ⟨xs, lineStart', before, after, hxs, hproblem, hplace⟩ := ih hcut
      refine ⟨x :: xs, lineStart', before, after, hwhole ▸ .cons hx hxs, hproblem, ?_⟩
      simp only [hplace, List.flatMap_cons, Position.advance_append]
    | case4 => cases h
  · rintro ⟨xs, lineStart', before, rest, hxs, hproblem, hplace⟩
    obtain ⟨problem, position⟩ := fault
    obtain rfl : position = _ := hplace
    generalize hleft : before ++ rest = left at hxs
    induction hxs generalizing p with
    | nil =>
      obtain ⟨c, u, hcons⟩ := List.exists_cons_of_ne_nil hproblem.ne_nil
      have hread := hproblem.read_eq hcons.symm
      rw [← hleft, hcons, cut]
      split
      · rename_i hstuck
        obtain rfl := Except.error.inj (hread.symm.trans hstuck)
        rfl
      · rename_i hok
        cases hread.symm.trans hok
    | @cons _ _ x more _ xs hx _ ih =>
      obtain ⟨c, u, hcons⟩ := List.exists_cons_of_ne_nil hx.text_ne_nil
      have hwhole : x.text ++ more = c :: (u ++ more) := by rw [hcons, List.cons_append]
      have hread := hx.read_eq hwhole.symm
      rw [hwhole, Token.cut_of_read hread, ← hwhole, List.drop_left, ih hproblem hleft]
      simp only [Except.map, List.flatMap_cons, Position.advance_append]

end

end SqfLayout.Lexeme
