import SqfLayout.Proofs.Header.Written

/-! The comment of a header as a grammar of lines, and its reader, which accepts exactly that grammar.
The reader is greedy, but no line that goes on with one section can open the next. -/
namespace SqfLayout.Header
open Text (isPrefixOf?_append)

/-- A text that does not start with white space, as the text of a line does behind its indentation. -/
def Flush (text : Text) : Prop := ∀ c ∈ text.head?, Text.isSpace c = false

/-- What may stand between two sections. -/
def Gap (lines : List Text) : Prop := lines = [] ∨ lines = [[]]

/-- The lines of a parameter list from an ordinal on, and what they declare. Nothing is bound. -/
inductive Lists (c : Convention) : Nat → List Text → List Parameter → Prop
  | nil {ordinal : Nat} : Lists c ordinal [] []
  | cons {ordinal : Nat} {text : Text} {p : Parameter} {lines : List Text} {ps : List Parameter}
      (htext : Flush text) (hp : parameterLine? c ordinal text = some p)
      (hunbound : p.name? = none ∧ p.value? = none) (hps : Lists c (ordinal + 1) lines ps) :
      Lists c ordinal (indent text :: lines) (p :: ps)

/-- The lines below the heading of the parameters. An empty line ends a list. -/
inductive ListsAll (c : Convention) : List Text → List Parameter → Prop
  | none : ListsAll c [indent "None"] []
  | list {lines : List Text} {ps : List Parameter} (hne : ps ≠ []) (hps : Lists c 0 lines ps) :
      ListsAll c (lines ++ [[]]) ps

/-- The lines of a comment up to the end of its parameters, and the header that they declare. -/
inductive Opens (c : Convention) : List Text → Header → Prop
  | sections {names : Text} {h : Header} {gap gap' gap'' lines : List Text}
      (htitle : Flush c.title) (hgap : Gap gap) (hnames : Text.splitItems names = h.authors)
      (hknown : ∀ a ∈ h.authors, c.isAuthor a = true) (hgap' : Gap gap') (hne : h.description ≠ [])
      (hsentences : ∀ t ∈ h.description, Flush t ∧ isSentence t = true) (hgap'' : Gap gap'')
      (hparameters : ListsAll c lines h.parameters) :
      Opens c ([[], indent c.title] ++ gap ++ [indent ("Author: " ++ names)] ++ gap' ++
        [indent "Description:"] ++ h.description.map indent ++ gap'' ++
        [indent "Parameter(s):"] ++ lines) h

/-- The lines of a comment that declares a header, whatever stands below the parameters. The line
that ends a list must not be the last. -/
def Describes (c : Convention) (lines : List Text) (h : Header) : Prop :=
  ∃ front tail, lines = front ++ tail ∧ Opens c front h ∧ (h.parameters ≠ [] → tail ≠ [])

theorem flush_iff {text : Text} : Flush text ↔ text.head?.any Text.isSpace = false := by
  cases text <;> simp [Flush]

theorem indented?_eq_some_iff {line text : Text} :
    indented? line = some text ↔ line = indent text ∧ Flush text := by
  constructor
  · intro h
    unfold indented? at h
    split at h
    · cases h
    · rename_i rest hrest
      split at h
      · cases h
      · rename_i hspace
        cases h
        exact ⟨(List.isPrefixOf?_eq_some_iff_append_eq.1 hrest).symm, flush_iff.2 (by simpa using hspace)⟩
  · rintro ⟨rfl, htext⟩
    exact indented?_indent (flush_iff.1 htext)

private theorem indent_ne_nil (text : Text) : indent text ≠ [] := by simp [indent]

private theorem flush_author (names : Text) : Flush ("Author: " ++ names) :=
  flush_iff.2 (by simp; decide)

theorem startsBlank_iff {lines : List Text} :
    startsBlank lines = true ↔ ∃ rest, rest ≠ [] ∧ lines = [] :: rest := by
  constructor
  · intro h
    cases lines with
    | nil => cases h
    | cons line rest =>
      cases rest with
      | nil => cases h
      | cons next rest => exact ⟨next :: rest, by simp, by simpa [startsBlank] using h⟩
  · rintro ⟨rest, hrest, rfl⟩
    obtain ⟨next, rest, rfl⟩ := List.exists_cons_of_ne_nil hrest
    rfl

theorem flush_heading : Flush "Description:" ∧ Flush "Parameter(s):" ∧ Flush "None" :=
  ⟨flush_iff.2 (by simp; decide), flush_iff.2 (by simp; decide), flush_iff.2 (by simp; decide)⟩

namespace Lines

theorem text?_eq_some_iff {l : Lines} {text : Text} :
    l.text? = some text ↔ Flush text ∧ ∃ rest, l.rest = indent text :: rest := by
  unfold text?
  rw [Option.bind_eq_some_iff]
  constructor
  · rintro ⟨line, hline, htext⟩
    obtain ⟨rfl, hflush⟩ := indented?_eq_some_iff.1 htext
    exact ⟨hflush, List.head?_eq_some_iff.1 hline⟩
  · rintro ⟨hflush, rest, hrest⟩
    exact ⟨indent text, by rw [hrest]; rfl, indented?_eq_some_iff.2 ⟨rfl, hflush⟩⟩

private theorem exists_gap (l : Lines) : ∃ gap, Gap gap ∧ l.rest = gap ++ l.skipBlank.rest := by
  unfold skipBlank
  split
  · rename_i hblank
    obtain ⟨rest, -, hrest⟩ := startsBlank_iff.1 hblank
    exact ⟨[[]], .inr rfl, by simp [advance, hrest]⟩
  · exact ⟨[], .inl rfl, rfl⟩

private theorem skipBlank_append {l : Lines} {gap rest : List Text} {line : Text} (hgap : Gap gap)
    (hline : line ≠ []) (hl : l.rest = gap ++ line :: rest) : l.skipBlank.rest = line :: rest := by
  unfold skipBlank
  obtain rfl | rfl := hgap
  · rw [List.nil_append] at hl
    rw [hl, startsBlank_of_ne_nil hline, if_neg Bool.false_ne_true, hl]
  · simp [hl, startsBlank, advance]

end Lines

section
variable {c : Convention}

private theorem bind_ok_iff {ε α β : Type} {x : Except ε α} {f : α → Except ε β} {b : β} :
    (x >>= f) = .ok b ↔ ∃ a, x = .ok a ∧ f a = .ok b := by
  cases x <;> simp [bind, Except.bind]

theorem readTitle_ok_iff {l l' : Lines} : readTitle c l = .ok l' ↔
    Flush c.title ∧ l.rest = [] :: indent c.title :: l'.rest ∧ l' = l.advance.advance := by
  unfold readTitle
  constructor
  · intro h
    split at h
    · rename_i hfound
      obtain ⟨others, hopening⟩ := List.head?_eq_some_iff.1 hfound.1
      obtain ⟨hflush, rest, hrest⟩ := Lines.text?_eq_some_iff.1 hfound.2
      cases h
      refine ⟨hflush, ?_, rfl⟩
      simp only [Lines.advance, hopening, List.tail_cons] at hrest ⊢
      rw [hrest, List.tail_cons]
    · cases h
  · rintro ⟨hflush, hl, rfl⟩
    have hadvance : l.advance.rest = indent c.title :: l.advance.advance.rest :=
      congrArg List.tail hl
    rw [if_pos ⟨List.head?_eq_some_iff.2 ⟨_, hl⟩,
      Lines.text?_eq_some_iff.2 ⟨hflush, _, hadvance⟩⟩]

theorem readAuthors_ok_iff {l l' : Lines} {authors : List Text} :
    readAuthors c l = .ok (authors, l') ↔ ∃ names, l.rest = indent ("Author: " ++ names) :: l'.rest ∧
      Text.splitItems names = authors ∧ (∀ a ∈ authors, c.isAuthor a = true) ∧ l' = l.advance := by
  unfold readAuthors
  constructor
  · intro h
    split at h
    · cases h
    · rename_i names hnames
      obtain ⟨text, htext, hmark⟩ := Option.bind_eq_some_iff.1 hnames
      obtain ⟨_, rest, hrest⟩ := Lines.text?_eq_some_iff.1 htext
      obtain rfl := List.isPrefixOf?_eq_some_iff_append_eq.1 hmark
      dsimp only at h
      split at h
      · rename_i hknown
        cases h
        refine ⟨names, ?_, rfl, by simpa using hknown, rfl⟩
        simp only [hrest, Lines.advance, List.tail_cons]
      · cases h
  · rintro ⟨names, hl, rfl, hknown, rfl⟩
    have htext : l.text? = some ("Author: " ++ names) :=
      Lines.text?_eq_some_iff.2 ⟨flush_author names, _, hl⟩
    have hall : (Text.splitItems names).all c.isAuthor = true := by simpa using hknown
    simp only [htext, Option.bind_some, isPrefixOf?_append, hall, if_true]

private theorem exists_sentences (lines : List Text) : ∃ rest, lines = (sentences lines).map indent ++ rest ∧
    ∀ t ∈ sentences lines, Flush t ∧ isSentence t = true := by
  induction lines with
  | nil => exact ⟨[], rfl, by simp [sentences]⟩
  | cons line lines ih =>
    rw [sentences]
    split
    · exact ⟨line :: lines, rfl, by simp⟩
    · rename_i text htext
      obtain ⟨rfl, hflush⟩ := indented?_eq_some_iff.1 htext
      split
      · rename_i hsentence
        obtain ⟨rest, hrest, hall⟩ := ih
        refine ⟨rest, ?_, ?_⟩
        · rw [List.map_cons, List.cons_append, ← hrest]
        · simpa [hflush, hsentence] using hall
      · exact ⟨indent text :: lines, rfl, by simp⟩

theorem readDescription_eq (l : Lines) : readDescription l =
    if l.text? = some (Text.ofString "Description:") ∧ sentences l.rest.tail ≠ [] then
      .ok (sentences l.rest.tail, ⟨l.number + 1 + (sentences l.rest.tail).length,
        l.rest.tail.drop (sentences l.rest.tail).length⟩)
    else .error ⟨.badDescription, ⟨l.number, 1⟩⟩ := rfl

theorem readDescription_ok_iff {l l' : Lines} {found : List Text} :
    readDescription l = .ok (found, l') ↔ found ≠ [] ∧ sentences l.rest.tail = found ∧
      l.rest = indent "Description:" :: (found.map indent ++ l'.rest) ∧
      l'.number = l.number + 1 + found.length := by
  obtain ⟨rest, hrest, -⟩ := exists_sentences l.rest.tail
  have hdrop : l.rest.tail.drop (sentences l.rest.tail).length = rest := by
    conv => lhs; rw [hrest]
    rw [List.drop_left' (by simp [← hrest])]
  rw [readDescription_eq]
  constructor
  · intro h
    split at h
    · rename_i hfound
      obtain ⟨-, others, hothers⟩ := Lines.text?_eq_some_iff.1 hfound.1
      cases h
      refine ⟨hfound.2, rfl, ?_, rfl⟩
      simp only [hdrop, ← hrest]
      rw [hothers, List.tail_cons]
    · cases h
  · rintro ⟨hne, rfl, hl, hnumber⟩
    have hheading := Lines.text?_eq_some_iff.2 ⟨flush_heading.1, _, hl⟩
    rw [if_pos ⟨hheading, hne⟩, hdrop, ← hnumber]
    have hl' : l'.rest = rest := by
      have htail := congrArg List.tail hl
      rw [List.tail_cons] at htail
      exact List.append_cancel_left (htail.symm.trans hrest)
    rw [← hl']

private theorem unbound_of_parameterLine? {ordinal : Nat} {text : Text} {p : Parameter}
    (h : parameterLine? c ordinal text = some p) : p.name? = none ∧ p.value? = none := by
  unfold parameterLine? at h
  simp only [Option.bind_eq_bind, Option.bind_eq_some_iff, Option.pure_def, Option.some.injEq] at h
  obtain ⟨_, _, _, _, _, _, _, _, _, _, _, _, rfl⟩ := h
  exact ⟨rfl, rfl⟩

theorem readList_ok_iff {ordinal number : Nat} {lines : List Text} {ps : List Parameter} :
    readList c ordinal number lines = .ok ps ↔ ps ≠ [] ∧
      ∃ front tail, Lists c ordinal front ps ∧ tail ≠ [] ∧ lines = front ++ [] :: tail := by
  induction lines generalizing ordinal number ps with
  | nil => simp [readList]
  | cons line lines ih =>
    rw [readList]
    constructor
    · intro h
      split at h
      · cases h
      · rename_i p hp
        obtain ⟨text, htext, hline⟩ := Option.bind_eq_some_iff.1 hp
        obtain ⟨rfl, hflush⟩ := indented?_eq_some_iff.1 htext
        have hunbound := unbound_of_parameterLine? hline
        split at h
        · rename_i hblank
          cases h
          obtain ⟨tail, htail, rfl⟩ := startsBlank_iff.1 hblank
          exact ⟨by simp, [indent text], tail, .cons hflush hline hunbound .nil, htail, rfl⟩
        · cases hmore : readList c (ordinal + 1) (number + 1) lines with
          | error v => rw [hmore] at h; cases h
          | ok rest =>
            rw [hmore] at h
            cases h
            obtain ⟨_, front, tail, hfront, htail, rfl⟩ := ih.1 hmore
            exact ⟨by simp, indent text :: front, tail, .cons hflush hline hunbound hfront, htail, rfl⟩
    · rintro ⟨hne, front, tail, hfront, htail, hlines⟩
      cases hfront with
      | nil => exact absurd rfl hne
      | @cons _ text p front rest hflush hp _ hrest =>
        obtain ⟨rfl, rfl⟩ := List.cons.inj hlines
        have hread : (indented? (indent text)).bind (parameterLine? c ordinal) = some p := by
          rw [indented?_eq_some_iff.2 ⟨rfl, hflush⟩]
          exact hp
        rw [hread]
        cases hrest with
        | nil =>
          obtain ⟨next, tail, rfl⟩ := List.exists_cons_of_ne_nil htail
          rfl
        | @cons _ text' p' front rest hflush' hp' hunbound' hrest =>
          have hmore : readList c (ordinal + 1) (number + 1) _ = .ok (p' :: rest) :=
            ih.2 ⟨by simp, _, tail, .cons hflush' hp' hunbound' hrest, htail, rfl⟩
          rw [hmore]
          exact if_neg (Bool.eq_false_iff.1 (startsBlank_of_ne_nil (indent_ne_nil text') _))

private theorem parameterLine?_none (ordinal : Nat) : parameterLine? c ordinal "None" = none := by
  have hdigits : (Text.ofString "None").takeWhile Char.isDigit = [] := by simp
  simp [parameterLine?]

theorem readParameters_eq (l : Lines) : readParameters c l =
    if l.text? = some (Text.ofString "Parameter(s):") then
      if l.advance.text? = some (Text.ofString "None") then .ok []
      else readList c 0 (l.number + 1) l.rest.tail
    else .error ⟨.noParameters, ⟨l.number, 1⟩⟩ := rfl

theorem readParameters_ok_iff {l : Lines} {ps : List Parameter} :
    readParameters c l = .ok ps ↔ ∃ front tail, l.rest = indent "Parameter(s):" :: (front ++ tail) ∧
      ListsAll c front ps ∧ (ps ≠ [] → tail ≠ []) := by
  rw [readParameters_eq]
  constructor
  · intro h
    split at h
    · rename_i hheading
      obtain ⟨-, rest, hl⟩ := Lines.text?_eq_some_iff.1 hheading
      split at h
      · rename_i hnone
        cases h
        obtain ⟨-, tail, htail⟩ := Lines.text?_eq_some_iff.1 hnone
        refine ⟨_, tail, ?_, .none, by simp⟩
        have hrest : l.advance.rest = rest := congrArg List.tail hl
        rw [hl, ← hrest, htail]
        rfl
      · rw [hl, List.tail_cons] at h
        obtain ⟨hne, front, tail, hfront, htail, rfl⟩ := readList_ok_iff.1 h
        exact ⟨front ++ [[]], tail, by simpa using hl, .list hne hfront, fun _ => htail⟩
    · cases h
  · rintro ⟨front, tail, hl, hps, htail⟩
    rw [if_pos (Lines.text?_eq_some_iff.2 ⟨flush_heading.2.1, _, hl⟩)]
    have hrest : l.advance.rest = front ++ tail := congrArg List.tail hl
    cases hps with
    | none => rw [if_pos (Lines.text?_eq_some_iff.2 ⟨flush_heading.2.2, tail, hrest⟩)]
    | @list lines _ hne hlist =>
      rw [List.append_assoc] at hrest
      rw [if_neg, readList_ok_iff]
      · exact ⟨hne, lines, tail, hlist, htail hne, hrest⟩
      · intro hnone
        obtain ⟨-, others, hothers⟩ := Lines.text?_eq_some_iff.1 hnone
        cases hlist with
        | nil => exact hne rfl
        | @cons _ text p _ _ _ hp =>
          have hnone : indent text = indent "None" := by
            rw [hrest] at hothers
            exact (List.cons.inj hothers).1
          obtain rfl : text = "None" := List.append_cancel_left hnone
          rw [parameterLine?_none] at hp
          cases hp

private theorem read_ok_iff {number : Nat} {comment : Text} {h : Header} :
    read c number comment = .ok h ↔ ∃ l₁ l₂ l₃,
      readTitle c (Lines.ofComment number comment) = .ok l₁ ∧
      readAuthors c l₁.skipBlank = .ok (h.authors, l₂) ∧
      readDescription l₂.skipBlank = .ok (h.description, l₃) ∧
      readParameters c l₃.skipBlank = .ok h.parameters := by
  unfold read
  constructor
  · intro hread
    obtain ⟨l₁, h₁, hread⟩ := bind_ok_iff.1 hread
    obtain ⟨⟨authors, l₂⟩, h₂, hread⟩ := bind_ok_iff.1 hread
    obtain ⟨⟨description, l₃⟩, h₃, hread⟩ := bind_ok_iff.1 hread
    obtain ⟨parameters, h₄, hpure⟩ := bind_ok_iff.1 hread
    cases hpure
    exact ⟨l₁, l₂, l₃, h₁, h₂, h₃, h₄⟩
  · rintro ⟨l₁, l₂, l₃, h₁, h₂, h₃, h₄⟩
    exact bind_ok_iff.2 ⟨l₁, h₁, bind_ok_iff.2 ⟨_, h₂, bind_ok_iff.2 ⟨_, h₃,
      bind_ok_iff.2 ⟨_, h₄, rfl⟩⟩⟩⟩

theorem describes_of_read {number : Nat} {comment : Text} {h : Header}
    (hread : read c number comment = .ok h) :
    Describes c (linesOf comment) h := by
  obtain ⟨l₁, l₂, l₃, h₁, h₂, h₃, h₄⟩ := read_ok_iff.1 hread
  obtain ⟨htitle, hl, -⟩ := readTitle_ok_iff.1 h₁
  obtain ⟨gap, hgap, hl₁⟩ := l₁.exists_gap
  obtain ⟨names, hl₁', hnames, hknown, -⟩ := readAuthors_ok_iff.1 h₂
  obtain ⟨gap', hgap', hl₂⟩ := l₂.exists_gap
  obtain ⟨hne, hfound, hl₂', -⟩ := readDescription_ok_iff.1 h₃
  obtain ⟨-, -, hsentences⟩ := exists_sentences l₂.skipBlank.rest.tail
  obtain ⟨gap'', hgap'', hl₃⟩ := l₃.exists_gap
  obtain ⟨front, tail, hl₃', hps, htail⟩ := readParameters_ok_iff.1 h₄
  rw [hfound] at hsentences
  refine ⟨_, tail, ?_, .sections htitle hgap hnames hknown hgap' hne hsentences hgap'' hps, htail⟩
  change (Lines.ofComment number comment).rest = _
  rw [hl, hl₁, hl₁', hl₂, hl₂', hl₃, hl₃']
  simp

/-- No sentence is found at a gap, nor at a heading that is none. -/
theorem sentences_gap {gap lines : List Text} {heading : Text} (hgap : Gap gap)
    (hheading : isSentence heading = false) : sentences (gap ++ indent heading :: lines) = [] := by
  obtain rfl | rfl := hgap
  · rw [List.nil_append, sentences]
    split
    · rfl
    · rename_i text htext
      obtain rfl : heading = text := List.append_cancel_left (indented?_eq_some_iff.1 htext).1
      rw [hheading]
      rfl
  · have hempty : indented? [] = none := by simp [indented?, List.isPrefixOf?]
    rw [List.cons_append, sentences, hempty]

theorem read_of_describes {comment : Text} {h : Header}
    (hlines : Describes c (linesOf comment) h) (number : Nat) :
    read c number comment = .ok h := by
  obtain ⟨front, tail, hrest, hfront, htail⟩ := hlines
  cases hfront with
  | @sections names _ gap gap' gap'' lines htitle hgap hnames hknown hgap' hne hsentences hgap'' hps =>
    have hl : (Lines.ofComment number comment).rest = [] :: indent c.title :: (gap ++
        indent ("Author: " ++ names) :: (gap' ++ indent "Description:" :: (h.description.map indent ++
          (gap'' ++ indent "Parameter(s):" :: (lines ++ tail))))) := by
      refine hrest.trans ?_
      simp
    rw [read_ok_iff]
    generalize Lines.ofComment number comment = l at hl ⊢
    have hl₁ : l.advance.advance.rest = gap ++ _ := congrArg (·.tail.tail) hl
    have hs₁ := Lines.skipBlank_append hgap (indent_ne_nil _) hl₁
    have hl₂ : l.advance.advance.skipBlank.advance.rest = gap' ++ _ := congrArg List.tail hs₁
    have hs₂ := Lines.skipBlank_append hgap' (indent_ne_nil _) hl₂
    let l₃ : Lines := ⟨l.advance.advance.skipBlank.advance.skipBlank.number + 1 + h.description.length,
      gap'' ++ indent "Parameter(s):" :: (lines ++ tail)⟩
    have hs₃ := Lines.skipBlank_append (l := l₃) hgap'' (indent_ne_nil _) rfl
    refine ⟨_, _, l₃, readTitle_ok_iff.2 ⟨htitle, ?_, rfl⟩,
      readAuthors_ok_iff.2 ⟨names, ?_, hnames, hknown, rfl⟩,
      readDescription_ok_iff.2 ⟨hne, ?_, hs₂, rfl⟩, readParameters_ok_iff.2 ⟨lines, tail, hs₃, hps, htail⟩⟩
    · rw [hl, hl₁]
    · rw [hs₁, hl₂]
    · rw [hs₂, List.tail_cons]
      have hheading : isSentence "Parameter(s):" = false := isSentence_eq_false_of_colon (by simp)
      exact sentences_append (fun t ht => (hsentences t ht).2) (sentences_gap hgap'' hheading)

end

/-- A comment is read if and only if its lines declare a header, which is then the only one that they
declare. Two comments that agree up to the end of their parameters are read alike. -/
theorem read_ok_iff_describes (c : Convention) (number : Nat) (comment : Text) (h : Header) :
    (read c number comment = .ok h ↔ Describes c (linesOf comment) h) ∧
      (∀ h', Describes c (linesOf comment) h → Describes c (linesOf comment) h' → h' = h) ∧
      ∀ front tail tail' number' comment', Opens c front h → linesOf comment = front ++ tail →
        linesOf comment' = front ++ tail' → (h.parameters ≠ [] → tail ≠ [] ∧ tail' ≠ []) →
        read c number comment = .ok h ∧ read c number' comment' = .ok h := by
  refine ⟨⟨describes_of_read, fun hlines => read_of_describes hlines number⟩, ?_, ?_⟩
  · intro h' hlines hlines'
    have hread := (read_of_describes hlines number).symm.trans (read_of_describes hlines' number)
    exact (Except.ok.inj hread).symm
  · intro front tail tail' number' comment' hfront hlines hlines' htail
    exact ⟨read_of_describes ⟨front, tail, hlines, hfront, fun hne => (htail hne).1⟩ number,
      read_of_describes ⟨front, tail', hlines', hfront, fun hne => (htail hne).2⟩ number'⟩

/-- A comment without most of its gaps, and with a section that no reader knows. -/
theorem describes_speed : Describes .standard
    (linesOf ("\n    Arma At War\n    Author: BadGuy, NetFusion\n\n    Description:\n    Sets a speed.\n" ++
      "    Parameter(s):\n    00: Speed <Number> (Default: 0)\n\n    Returns: nothing\n"))
    ⟨["BadGuy", "NetFusion"], ["Sets a speed."], [⟨"Speed", ["Number"], "0", none, none⟩]⟩ :=
  (read_ok_iff_describes .standard 1 _ _).1.1 (by cbv)

end SqfLayout.Header
