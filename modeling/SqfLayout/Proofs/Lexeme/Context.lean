import SqfLayout.Lexeme.Reader

/-! Reading a lexeme in a longer text. What comes behind a lexeme does not change it if it starts with
a separator. -/
namespace SqfLayout.Lexeme

/-- The separators of a written file, by which a lexeme ends. -/
def stops : List Char := [',', ']', ' ']

/-- The characters by which numbers and operators end in any file: separators and line breaks. -/
def ends : List Char := '\n' :: '\r' :: stops

/-- The characters that no number in front of them goes on with. -/
def bars : List Char := '[' :: ends

private theorem mem_bars {k : Char} (hk : k ∈ ends) : k ∈ bars := List.mem_cons_of_mem _ hk

private theorem mem_ends_of_stop {k : Char} (hk : k ∈ stops) : k ∈ ends := by simp [ends, hk]

theorem mem_ends_of_isBreak {k : Char} (hk : Text.isBreak k = true) : k ∈ ends := by
  simp only [Text.isBreak, Bool.or_eq_true, beq_iff_eq] at hk
  rcases hk with rfl | rfl <;> simp [ends]

theorem mem_bars_of_isBreak {k : Char} (hk : Text.isBreak k = true) : k ∈ bars :=
  mem_bars (mem_ends_of_isBreak hk)

theorem isDigit_bar : ∀ k ∈ bars, k.isDigit = false := by simp [bars, ends, stops]

private theorem isHexDigit_bar : ∀ k ∈ bars, Text.isHexDigit k = false := by
  simp [bars, ends, stops, Text.isHexDigit]

private theorem isCommand_stop : ∀ k ∈ stops, isCommand k = false := by
  intro k hk
  simp only [stops, List.mem_cons, List.not_mem_nil, or_false] at hk
  rcases hk with rfl | rfl | rfl <;> decide

theorem isBlank_stop {k : Char} (hk : k ∈ stops) (hspace : k ≠ ' ') : Text.isBlank k = false := by
  simp only [stops, List.mem_cons, List.not_mem_nil, or_false] at hk
  rcases hk with rfl | rfl | rfl
  · rfl
  · rfl
  · exact absurd rfl hspace

theorem ne_stop {k c : Char} (hk : k ∈ stops) (hc : c ∉ stops) : k ≠ c := by
  rintro rfl
  exact hc hk

theorem ne_bar {k c : Char} (hk : k ∈ bars) (hc : c ∉ bars) : k ≠ c := by
  rintro rfl
  exact hc hk

theorem head?_dropWhile_eq_false (p : Char → Bool) (t : Text) :
    ∀ c ∈ (t.dropWhile p).head?, p c = false := by
  intro c hc
  have hhead := List.head?_dropWhile_not p t
  rw [Option.mem_def.1 hc] at hhead
  simpa using hhead

theorem head?_eq_false_of_takeWhile {p : Char → Bool} {t more : Text} (h : t = t.takeWhile p ++ more) :
    ∀ c ∈ more.head?, p c = false := by
  have hmore : t.dropWhile p = more :=
    List.append_cancel_left (List.takeWhile_append_dropWhile.trans h)
  exact hmore ▸ head?_dropWhile_eq_false p t

section
variable {k : Char} {more : Text}

theorem takeWhile_append_stop {p : Char → Bool} (t more : Text) (hk : p k = false) :
    (t ++ k :: more).takeWhile p = t.takeWhile p := by
  rw [List.takeWhile_append]
  split
  · rename_i hall
    have ht := (List.takeWhile_prefix (l := t) p).eq_of_length hall
    simp [hk, ht]
  · rfl

private theorem head?_any_append_stop {p : Char → Bool} (t more : Text) (hk : p k = false) :
    (t ++ k :: more).head?.any p = t.head?.any p := by
  cases t with
  | nil => simpa using hk
  | cons d t => rfl

private theorem drop_append_stop {n : Nat} {t : Text} (hn : n ≤ t.length) :
    (t ++ k :: more).drop n = t.drop n ++ k :: more := List.drop_append_of_le_length hn

private theorem fraction_append (t : Text) (hk : k ∈ bars) :
    fraction (t ++ k :: more) = fraction t := by
  have hdot := ne_bar hk (c := '.') (by decide)
  have hdigit := isDigit_bar k hk
  match t with
  | [] => cases more <;> simp [fraction, hdot]
  | [c] => simp [fraction, hdigit]
  | c :: d :: t =>
    have := takeWhile_append_stop (d :: t) more hdigit
    simp only [List.cons_append] at this
    simp only [List.cons_append, fraction, this]

private theorem exponent_append (t : Text) (hk : k ∈ bars) :
    exponent (t ++ k :: more) = exponent t := by
  have hlower := ne_bar hk (c := 'e') (by decide)
  have hupper := ne_bar hk (c := 'E') (by decide)
  have hsign : isSign k = false := by
    simp [isSign, ne_bar hk (c := '+') (by decide), ne_bar hk (c := '-') (by decide)]
  have hdigit := isDigit_bar k hk
  match t with
  | [] => cases more <;> simp [exponent, hlower, hupper]
  | [e] => simp [exponent, hdigit, hsign]
  | e :: c :: t =>
    have hdigits := takeWhile_append_stop (c :: t) more hdigit
    have hrest := takeWhile_append_stop t more hdigit
    have hhead := head?_any_append_stop t more hdigit
    simp only [List.cons_append] at hdigits
    simp only [List.cons_append, exponent, hdigits, hrest, hhead]

private theorem decimal_append (t more : Text) (hk : k ∈ bars) :
    decimal (t ++ k :: more) = decimal t := by
  have hwhole := takeWhile_append_stop t more (isDigit_bar k hk)
  have hle : (t.takeWhile Char.isDigit).length ≤ t.length := (List.takeWhile_prefix _).length_le
  have hpart := (fraction_isPrefix (t.drop (t.takeWhile Char.isDigit).length)).length_le
  unfold decimal
  simp only [hwhole, drop_append_stop hle, fraction_append _ hk, drop_append_stop hpart,
    exponent_append _ hk]

/-- A number ends by such a character as at the end of the text. -/
theorem number_append {c : Char} (t : Text) (hk : k ∈ bars) :
    number (c :: t ++ k :: more) = number (c :: t) := by
  have hhex := isHexDigit_bar k hk
  have hlower := ne_bar hk (c := 'x') (by decide)
  have hupper := ne_bar hk (c := 'X') (by decide)
  have hdecimal := decimal_append (c :: t) more hk
  by_cases hc : c = '$'
  · have := takeWhile_append_stop t more hhex
    simp [number, hc, this]
  · cases t with
    | nil =>
      simp only [List.cons_append, List.nil_append] at hdecimal
      simp [number, hc, hlower, hupper, hdecimal]
    | cons d t =>
      have := takeWhile_append_stop t more hhex
      simp only [List.cons_append] at hdecimal
      simp only [List.cons_append, number, hc, if_false, this, hdecimal]

theorem startsNumber_append {c : Char} (t : Text) (hk : k ∈ bars) :
    startsNumber c (t ++ k :: more) = startsNumber c t := by
  unfold startsNumber
  rw [head?_any_append_stop t more (isDigit_bar k hk),
    head?_any_append_stop t more (isHexDigit_bar k hk)]

theorem commentBody_append {t body : Text} (h : commentBody t = some body) (more : Text) :
    commentBody (t ++ more) = some body := by
  fun_induction commentBody t generalizing body with
  | case1 => cases h
  | case2 => cases h
  | case3 c d rest hc =>
    cases h
    simp [commentBody, hc]
  | case4 c d rest hc ih =>
    obtain ⟨b, hb, rfl⟩ := Option.map_eq_some_iff.1 h
    have := ih hb
    simp only [List.cons_append] at this
    simp only [List.cons_append, commentBody, if_neg hc, this, Option.map_some]

private theorem stringBody_append {q : Char} {t body : Text} (h : stringBody q t = some body)
    (hq : k ≠ q) : stringBody q (t ++ k :: more) = some body := by
  fun_induction stringBody q t generalizing body with
  | case1 => cases h
  | case2 => simp_all [stringBody]
  | case3 => cases h
  | case4 rest ih =>
    obtain ⟨b, hb, rfl⟩ := Option.map_eq_some_iff.1 h
    simp [stringBody, ih hb]
  | case5 d rest hd =>
    cases h
    simp [stringBody, hd]
  | case6 c d rest hc ih =>
    obtain ⟨b, hb, rfl⟩ := Option.map_eq_some_iff.1 h
    have := ih hb
    simp only [List.cons_append] at this
    simp only [List.cons_append, stringBody, if_neg hc, this, Option.map_some]

theorem operator_append {c : Char} (t : Text) (hk : k ∈ ends) :
    operator c (t ++ k :: more) = operator c t := by
  cases t with
  | nil =>
    have hpair : (c, k) ∉ operatorPairs := by
      simp only [ends, stops, List.mem_cons, List.not_mem_nil, or_false] at hk
      rcases hk with rfl | rfl | rfl | rfl | rfl <;> simp [operatorPairs]
    simp [operator, hpair]
  | cons d t => rfl

private theorem head?_append_stop {d : Char} (t more : Text) (hd : k ≠ d) :
    (t ++ k :: more).head? = some d ↔ t.head? = some d := by
  cases t with
  | nil => simp [hd]
  | cons e t => rfl

/-- A separator behind a text does not change its first lexeme. -/
theorem read_append {c : Char} {t : Text} {x : Lexeme} (h : read false c t = .ok x)
    (hk : k ∈ stops) (hbreak : Text.isBreak c = false)
    (hblank : k = ' ' → Text.isBlank c = false) (hline : ∀ text, x ≠ .plain .lineComment text)
    (more : Text) : read false c (t ++ k :: more) = .ok x := by
  have hstar := head?_append_stop t more (ne_stop hk (c := '*') (by decide))
  have hslash := head?_append_stop t more (ne_stop hk (c := '/') (by decide))
  unfold read at h ⊢
  rw [if_neg (by simp [hbreak])] at h ⊢
  by_cases hc : Text.isBlank c = true
  · have hstop : Text.isBlank k = false := by
      refine isBlank_stop hk ?_
      intro hspace
      simp [hblank hspace] at hc
    rw [if_pos hc] at h ⊢
    rw [← List.cons_append, takeWhile_append_stop _ _ hstop]
    exact h
  rw [if_neg hc] at h ⊢
  rw [if_neg (by simp)] at h ⊢
  by_cases hcomment : c = '/' ∧ t.head? = some '*'
  · have hcomment' : c = '/' ∧ (t ++ k :: more).head? = some '*' := ⟨hcomment.1, hstar.2 hcomment.2⟩
    rw [if_pos hcomment] at h
    rw [if_pos hcomment']
    cases t with
    | nil => simp at hcomment
    | cons d t =>
      cases hbody : commentBody t with
      | none => simp [hbody] at h
      | some body =>
        have := commentBody_append hbody (k :: more)
        simpa [this, hbody] using h
  have hcomment' : ¬ (c = '/' ∧ (t ++ k :: more).head? = some '*') :=
    fun hs => hcomment ⟨hs.1, hstar.1 hs.2⟩
  rw [if_neg hcomment] at h
  rw [if_neg hcomment']
  by_cases hrest : c = '/' ∧ t.head? = some '/'
  · rw [if_pos hrest] at h
    cases h
    exact absurd rfl (hline _)
  have hrest' : ¬ (c = '/' ∧ (t ++ k :: more).head? = some '/') :=
    fun hs => hrest ⟨hs.1, hslash.1 hs.2⟩
  rw [if_neg hrest] at h
  rw [if_neg hrest']
  by_cases hquote : c = '"' ∨ c = '\''
  · rw [if_pos hquote] at h ⊢
    have hne : k ≠ c := by
      rcases hquote with rfl | rfl
      · exact ne_stop hk (by decide)
      · exact ne_stop hk (by decide)
    cases hbody : stringBody c t with
    | none => simp [hbody] at h
    | some body => simpa [stringBody_append hbody hne, hbody] using h
  rw [if_neg hquote] at h ⊢
  have hend := mem_ends_of_stop hk
  rw [startsNumber_append t (mem_bars hend), ← List.cons_append, number_append t (mem_bars hend),
    takeWhile_append_stop _ _ (isCommand_stop k hk), operator_append t hend]
  exact h

end

section
variable {lineStart : Bool} {more : Text}

/-- A text that is one lexeme, which is a token as it stands. -/
def IsOne (kind : Token.Kind) (text : Text) : Prop :=
  ∃ c rest, text = c :: rest ∧ read false c rest = .ok (.plain kind text)

theorem read_eq_of_ne_hash {c : Char} (hc : c ≠ '#') (t : Text) :
    read lineStart c t = read false c t := by
  unfold read
  simp [hc]

theorem read_breaks {c : Char} (hc : Text.isBreak c = true) (t : Text) :
    read lineStart c t = .ok (.breaks ((c :: t).takeWhile isRun)) := by
  unfold read
  rw [if_pos hc]

theorem isBreak_eq_false_of_isBlank {c : Char} (hc : Text.isBlank c = true) :
    Text.isBreak c = false := by
  simp only [Text.isBlank, Bool.or_eq_true, beq_iff_eq] at hc
  rcases hc with rfl | rfl <;> rfl

theorem isBlank_eq_false_of_isBreak {c : Char} (hc : Text.isBreak c = true) : Text.isBlank c = false := by
  refine Bool.eq_false_iff.2 fun hblank => ?_
  rw [isBreak_eq_false_of_isBlank hblank] at hc
  cases hc

theorem read_blanks {c : Char} {t : Text} (hc : ∀ d ∈ c :: t, Text.isBlank d = true)
    (hmore : ∀ d ∈ more.head?, Text.isBlank d = false) :
    read lineStart c (t ++ more) = .ok (.plain .space (c :: t)) := by
  have hbreak := isBreak_eq_false_of_isBlank (hc c (by simp))
  have hall : (c :: (t ++ more)).takeWhile Text.isBlank = c :: t := by
    rw [← List.cons_append, List.takeWhile_append_of_pos hc]
    cases more with
    | nil => simp
    | cons d more => simp [hmore d (by simp)]
  unfold read
  rw [if_neg (by simp [hbreak]), if_pos (hc c (by simp)), hall]

theorem read_mark {k : Char} {kind : Token.Kind} (hk : mark? k = some kind) (t : Text) :
    read lineStart k t = .ok (.plain kind [k]) := by
  have hmem : k ∈ ['[', ']', '{', '}', '(', ')', ',', ';'] := by
    refine Decidable.byContradiction fun hno => ?_
    simp only [List.mem_cons, List.not_mem_nil, or_false, not_or] at hno
    simp [mark?, hno] at hk
  obtain ⟨hbreak, hblank, hno, hdigit, hletter⟩ : Text.isBreak k = false ∧
      Text.isBlank k = false ∧ k ∉ ['#', '/', '"', '\'', '.', '$', '_'] ∧ k.isDigit = false ∧
      Text.isLetter k = false := by
    simp only [List.mem_cons, List.not_mem_nil, or_false] at hmem
    rcases hmem with rfl | rfl | rfl | rfl | rfl | rfl | rfl | rfl <;> decide
  simp only [List.mem_cons, List.not_mem_nil, or_false, not_or] at hno
  unfold read
  simp [hbreak, hblank, hno, hdigit, hletter, startsNumber, hk]

private theorem stringBody_of_not_mem {q : Char} {v : Text} (hv : q ∉ v)
    (hmore : more.head? ≠ some q) : stringBody q (v ++ q :: more) = some v := by
  induction v with
  | nil =>
    cases more with
    | nil => simp [stringBody]
    | cons d more =>
      have hd : d ≠ q := by simpa using hmore
      simp [stringBody, hd]
  | cons c v ih =>
    simp only [List.mem_cons, not_or] at hv
    have := ih hv.2
    cases v with
    | nil => simp_all [stringBody, Ne.symm hv.1]
    | cons d v =>
      simp only [List.cons_append] at this ⊢
      rw [stringBody, if_neg (Ne.symm hv.1), this]
      rfl

theorem read_string {v : Text} (hv : '"' ∉ v) (hmore : more.head? ≠ some '"') :
    read lineStart '"' (v ++ '"' :: more) = .ok (.string '"' v) := by
  have hbody := stringBody_of_not_mem hv hmore
  unfold read
  simp [Text.isBreak, Text.isBlank, hbody]

theorem commentBody_closed {body : Text} (hbody : ¬ ['*', '/'] <:+: body) :
    commentBody (body ++ '*' :: '/' :: more) = some body := by
  induction body with
  | nil => simp [commentBody]
  | cons c body ih =>
    have := ih fun h => hbody (List.infix_cons h)
    cases body with
    | nil => simp_all [commentBody]
    | cons d body =>
      have hfirst : ¬ (c = '*' ∧ d = '/') := by
        rintro ⟨rfl, rfl⟩
        exact hbody ⟨[], body, rfl⟩
      simp only [List.cons_append] at this ⊢
      rw [commentBody, if_neg hfirst, this]
      rfl

theorem read_slash_star (t : Text) : read lineStart '/' ('*' :: t) =
    match commentBody t with
    | some body => .ok (.blockComment body)
    | none => .error ⟨.unterminatedComment, []⟩ := by
  unfold read
  cases hbody : commentBody t <;> simp [Text.isBreak, Text.isBlank, hbody]

theorem read_comment {body : Text} (hbody : ¬ ['*', '/'] <:+: body) :
    read lineStart '/' ('*' :: (body ++ '*' :: '/' :: more)) = .ok (.blockComment body) := by
  rw [read_slash_star, commentBody_closed hbody]

theorem read_include (t : Text) : read true '#' ("include \"" ++ t) =
    if (t.dropWhile PathStyle.quotes.holds).head? = some '"' then
      .ok (.inclusion " " .quotes (t.takeWhile PathStyle.quotes.holds))
    else .error ⟨.unterminatedInclude, "#"⟩ := by
  have hname : ∀ d ∈ ("include" : Text), isDirectiveWord d = true := by simp [isDirectiveWord]
  have hgap : isDirectiveWord ' ' = false := by decide
  have hsource : "include \"" ++ t = ("include" : Text) ++ ' ' :: '"' :: t := by simp
  have hword : ("include \"" ++ t).takeWhile isDirectiveWord = "include" := by
    rw [hsource, List.takeWhile_append_of_pos hname, List.takeWhile_cons, hgap]
    simp
  have hrest : ("include \"" ++ t).dropWhile isDirectiveWord = ' ' :: '"' :: t := by
    rw [hsource, List.dropWhile_append_of_pos hname, List.dropWhile_cons, hgap]
    simp
  have hinclusion : readInclusion (' ' :: '"' :: t) =
      if (t.dropWhile PathStyle.quotes.holds).head? = some '"' then
        .ok (.inclusion " " .quotes (t.takeWhile PathStyle.quotes.holds))
      else .error ⟨.unterminatedInclude, "#"⟩ := by
    simp [readInclusion, Text.isBlank, PathStyle.ofOpening?, PathStyle.closing]
  unfold read
  rw [if_neg (by decide), if_neg (by decide), if_pos ⟨rfl, rfl⟩, readDirective, hword, if_pos rfl,
    hrest, hinclusion]

theorem read_inclusion {path : Text} (hpath : ∀ c ∈ path, PathStyle.quotes.holds c = true) :
    read true '#' ("include \"" ++ path ++ '"' :: more) = .ok (.inclusion " " .quotes path) := by
  have hend : PathStyle.quotes.holds '"' = false := rfl
  have hhead : (path ++ '"' :: more).takeWhile PathStyle.quotes.holds = path := by
    simp [List.takeWhile_append_of_pos hpath, hend]
  have htail : (path ++ '"' :: more).dropWhile PathStyle.quotes.holds = '"' :: more := by
    simp [List.dropWhile_append_of_pos hpath, hend]
  rw [List.append_assoc, read_include, htail, hhead]
  rfl

theorem IsOne.exists_cons {kind : Token.Kind} {text : Text} (h : IsOne kind text)
    (hkind : kind = .command ∨ kind = .number) : ∃ c rest, text = c :: rest ∧
      Text.isBlank c = false ∧ Text.isBreak c = false ∧ c ≠ '#' := by
  obtain ⟨c, rest, rfl, hread⟩ := h
  have hbreak : Text.isBreak c = false := by
    refine Bool.eq_false_iff.2 fun hc => ?_
    rw [read_breaks hc] at hread
    simp at hread
  refine ⟨c, rest, rfl, Bool.eq_false_iff.2 fun hc => ?_, hbreak, ?_⟩
  · unfold read at hread
    rw [if_neg (by simp [hbreak]), if_pos hc] at hread
    rcases hkind with rfl | rfl <;> simp at hread
  · rintro rfl
    have hletter : Text.isLetter '#' = false := by decide
    rcases hkind with rfl | rfl <;>
      simp [read, Text.isBreak, Text.isBlank, startsNumber, hletter, mark?, operatorCharacters] at hread

theorem IsOne.read_append {kind : Token.Kind} {c k : Char} {rest : Text}
    (h : IsOne kind (c :: rest)) (hkind : kind = .command ∨ kind = .number) (hk : k ∈ stops) :
    read false c (rest ++ k :: more) = .ok (.plain kind (c :: rest)) := by
  obtain ⟨d, t, hcons, hblank, hbreak, _⟩ := h.exists_cons hkind
  obtain ⟨_, _, hcons', hread⟩ := h
  cases hcons
  cases hcons'
  refine Lexeme.read_append hread hk hbreak (fun _ => hblank) (fun text hline => ?_) more
  rcases hkind with rfl | rfl <;> simp at hline

theorem readDirective_cases {rest : Text} {x : Lexeme} (h : readDirective rest = .ok x) :
    (∃ gap style path, x = .inclusion gap style path) ∨ ∃ body, x = .directive body := by
  unfold readDirective at h
  split at h
  · obtain ⟨gap, style, path, rfl, _⟩ := readInclusion_isPrefix h
    exact .inl ⟨gap, style, path, rfl⟩
  · cases h
    exact .inr ⟨_, rfl⟩

/-- Within a line there are no line breaks, and a line comment takes all that is left of it. -/
theorem read_within_line {c : Char} {t : Text} {x : Lexeme} (h : read false c t = .ok x)
    (hbreak : ∀ d ∈ c :: t, Text.isBreak d = false) :
    x.isBreaks = false ∧ ∀ text, x = .plain .lineComment text → text = c :: t := by
  cases reads_of_read h with
  | breaks hc => simp [hbreak c (by simp)] at hc
  | directive _ hx =>
    obtain ⟨gap, style, path, rfl⟩ | ⟨body, rfl⟩ := readDirective_cases hx
    · exact ⟨rfl, by simp⟩
    · exact ⟨rfl, by simp⟩
  | lineComment =>
    refine ⟨rfl, ?_⟩
    rintro _ ⟨⟩
    have hall : ∀ d ∈ c :: t, (!Text.isBreak d) = true := by simpa using hbreak
    have hline : (c :: t ++ []).takeWhile (!Text.isBreak ·) = c :: t ++ [].takeWhile _ :=
      List.takeWhile_append_of_pos hall
    simpa using hline
  | mark hkind =>
    refine ⟨rfl, ?_⟩
    rintro _ ⟨⟩
    unfold mark? at hkind
    grind
  | space | blockComment | string | number | command | operator => exact ⟨rfl, by simp⟩

theorem read_hash {t : Text} {x : Lexeme} (h : read true '#' t = .ok x) (p : Position) :
    x.isBreaks = false ∧ ∃ u more, x.tokens p = u :: more ∧ u.kind = .preprocessorStart := by
  obtain ⟨gap, style, path, rfl⟩ | ⟨body, rfl⟩ := readDirective_cases (show readDirective t = .ok x from h)
  · exact ⟨rfl, _, _, rfl, rfl⟩
  · exact ⟨rfl, _, _, rfl, rfl⟩

end

end SqfLayout.Lexeme
