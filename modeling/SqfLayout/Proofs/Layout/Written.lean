import SqfLayout.Proofs.Layout.WrittenEntry

/-! A whole file that is written from a header, and its check, which gives that header back. -/
namespace SqfLayout.Layout
open Token (Scans Stage scans_breaks)

/-- A file as it is to be written: what its header says, and how its parameters are bound. -/
structure Plan where
  authors : List Text
  description : List Text
  drafts : List Draft

/-- The text between two entries, which stand on a line each. -/
def betweenEntries : Text := [',', '\n', ' ', ' ', ' ', ' ']

def openBracket : Text := [' ', '[', '\n', ' ', ' ', ' ', ' ']

def closeBracket : Text := ['\n', ']', ';', '\n']

/-- The entries of drafts, one on a line. -/
def entriesText (c : Convention) : List Draft → Text
  | [] => []
  | [d] => d.text c
  | d :: ds => d.text c ++ (betweenEntries ++ entriesText c ds)

def boundAll (c : Convention) (p : Position) : List Draft → List Parameter
  | [] => []
  | d :: ds => d.boundAt p :: boundAll c (p.advance (d.text c ++ betweenEntries)) ds

namespace Plan

def declared (plan : Plan) : Header :=
  ⟨plan.authors, plan.description, plan.drafts.map Draft.parameter⟩

def preamble (c : Convention) (plan : Plan) : Text :=
  "#include \"" ++ c.header ++ "\"\n/*" ++ Header.comment c plan.declared ++ "*/\n\n"

/-- The text in front of the entries, which ends with the command and its bracket. -/
def opening (c : Convention) (plan : Plan) : Text :=
  plan.preamble c ++ (c.parametersCommand ++ openBracket)

def text (c : Convention) (plan : Plan) : Text :=
  plan.opening c ++ entriesText c plan.drafts ++ closeBracket

def bound (c : Convention) (plan : Plan) : Header :=
  { plan.declared with
    parameters := boundAll c (Position.start.advance (plan.opening c)) plan.drafts }

end Plan

/-- A plan that can be written under a convention. -/
structure WritablePlan (c : Convention) (plan : Plan) : Prop where
  convention : WritableConvention c
  header : Header.Writable c plan.declared
  drafts : ∀ d ∈ plan.drafts, WritableDraft c d

section
variable {c : Convention} {more : Text}

/-- The levels that are open among the entries. -/
private def amongEntries : Indentation := ⟨0, [4]⟩

private theorem scans_entry {d : Draft} (hc : WritableConvention c) (hd : WritableDraft c d)
    (p : Position) (more : Text) : ∃ x, Binds c d.parameter x (d.boundAt p) ∧
      Scans p ⟨amongEntries, true⟩ (d.text c) more x ⟨amongEntries, false⟩ := by
  obtain ⟨x, hx, hemits⟩ := emits_entry hc hd p more
  obtain ⟨rest, hrest⟩ : ∃ rest, d.text c = '[' :: rest := by
    simp [Draft.text, Draft.opening]
  rw [hrest] at hemits ⊢
  exact ⟨x, hx, hemits.lineStart (by decide) amongEntries⟩

/-- The text does not go on with line breaks or blanks. -/
private def StartsLine (text : Text) : Prop := ∃ k rest, text = k :: rest ∧ Lexeme.isRun k = false

private theorem startsLine_entries {ds : List Draft} (hne : ds ≠ []) (more : Text) :
    StartsLine (entriesText c ds ++ more) := by
  obtain ⟨rest, hrest⟩ : ∃ rest, entriesText c ds = '[' :: rest := by
    obtain ⟨d, ds, rfl⟩ := List.exists_cons_of_ne_nil hne
    cases ds <;> simp [entriesText, Draft.text, Draft.opening]
  exact ⟨'[', rest ++ more, by rw [hrest]; rfl, by decide⟩

private theorem startsLine_command (hc : WritableConvention c) (more : Text) :
    StartsLine (c.parametersCommand ++ more) := by
  obtain ⟨k, rest, hcommand, hblank, hbreak, _⟩ := hc.command.exists_cons (.inl rfl)
  exact ⟨k, rest ++ more, by rw [hcommand]; rfl, by simp [Lexeme.isRun, hblank, hbreak]⟩

/-- A comma and a line break, which keeps the level, part two entries. -/
private theorem scans_betweenEntries (hmore : StartsLine more) (p : Position) :
    ∃ sep line : Token, sep.kind = .comma ∧ line.kind = .newline ∧
      Scans p ⟨amongEntries, false⟩ betweenEntries more [sep, line] ⟨amongEntries, true⟩ := by
  obtain ⟨k, rest, rfl, hk⟩ := hmore
  let run : Text := ['\n', ' ', ' ', ' ', ' ']
  let sep : Token := ⟨.comma, [','], p⟩
  let line : Token := Indentation.token (p.step ',') .newline
  have hcomma : Scans p ⟨amongEntries, false⟩ [','] (run ++ k :: rest) [sep] ⟨amongEntries, false⟩ :=
    Token.emits_mark rfl p _ amongEntries
  have hbreak : Scans (p.step ',') ⟨amongEntries, false⟩ run (k :: rest) [line]
      ⟨amongEntries, true⟩ := scans_breaks rfl (by simp [Lexeme.isRun, Text.isBlank]) hk
  exact ⟨sep, line, rfl, rfl, hcomma.append hbreak⟩

private theorem scans_entries {ds : List Draft} (hc : WritableConvention c) (hne : ds ≠ [])
    (hds : ∀ d ∈ ds, WritableDraft c d) (p : Position) (more : Text) :
    ∃ x, BindsAll c (ds.map Draft.parameter) x (boundAll c p ds) ∧
      Scans p ⟨amongEntries, true⟩ (entriesText c ds) more x ⟨amongEntries, false⟩ := by
  induction ds generalizing p with
  | nil => exact absurd rfl hne
  | cons d ds ih =>
    have hd := hds d (by simp)
    by_cases hlast : ds = []
    · subst hlast
      obtain ⟨x, hx, hscans⟩ := scans_entry hc hd p more
      exact ⟨x, .single hx, hscans⟩
    · have htext : entriesText c (d :: ds) = d.text c ++ (betweenEntries ++ entriesText c ds) := by
        obtain ⟨d', ds, rfl⟩ := List.exists_cons_of_ne_nil hlast
        rfl
      let p' := p.advance (d.text c)
      obtain ⟨x, hx, hentry⟩ := scans_entry hc hd p (betweenEntries ++ entriesText c ds ++ more)
      obtain ⟨sep, line, hsep, hline, hbetween⟩ :=
        scans_betweenEntries (startsLine_entries (c := c) hlast more) p'
      obtain ⟨y, hy, hothers⟩ := ih hlast (fun d hd => hds d (by simp [hd]))
        (p'.advance betweenEntries)
      have hbound : boundAll c p (d :: ds) =
          d.boundAt p :: boundAll c (p'.advance betweenEntries) ds := by
        rw [boundAll, Position.advance_append]
      rw [htext, hbound]
      exact ⟨_, .cons hx hsep hline hy, hentry.append (hbetween.append hothers)⟩

private theorem scans_preamble {plan : Plan} (hplan : WritablePlan c plan)
    (hmore : StartsLine more) : ∃ x, Declares c x plan.declared ∧
      Scans .start ⟨⟨0, []⟩, true⟩ (plan.preamble c) more x ⟨⟨0, []⟩, true⟩ := by
  obtain ⟨k, rest, rfl, hk⟩ := hmore
  let body := Header.comment c plan.declared
  let inclusion : Text := '#' :: ("include \"" ++ c.header ++ ['"'])
  let comment : Text := '/' :: ('*' :: (body ++ ['*', '/']))
  have htext : plan.preamble c = inclusion ++ ['\n'] ++ (comment ++ ['\n', '\n']) := by
    simp [Plan.preamble, inclusion, comment, body]
  -- The places of the comment and of the empty line.
  let p₁ := Position.start.advance (inclusion ++ ['\n'])
  let p₂ := p₁.advance comment
  let blank := Indentation.token p₂ .blank
  let line' := Indentation.token p₂ .newline
  obtain ⟨hash, file, line, hhash, hfile, hvalue, hline, hopening⟩ :=
    Token.scans_opening hplan.convention.header (body ++ ['*', '/'] ++ ['\n', '\n'] ++ k :: rest)
  have hcomment : Scans p₁ ⟨⟨0, []⟩, true⟩ comment (['\n', '\n'] ++ k :: rest)
      [⟨.blockComment, body, p₁⟩] ⟨⟨0, []⟩, false⟩ :=
    Token.scans_comment (Header.lacks_comment hplan.header) _
  have hblank : Scans p₂ ⟨⟨0, []⟩, false⟩ ['\n', '\n'] (k :: rest) [blank, line']
      ⟨⟨0, []⟩, true⟩ := scans_breaks rfl (by simp [Lexeme.isRun, Text.isBreak]) hk
  have hread := Header.read_comment hplan.header p₁.line
  rw [htext]
  exact ⟨_, .opening hhash hfile hvalue hline rfl hread rfl rfl, hopening.append (hcomment.append hblank)⟩

private theorem scans_command (hc : WritableConvention c) (hmore : StartsLine more) (p : Position) :
    ∃ command gap l indent : Token, command.kind = .command ∧
      command.value = c.parametersCommand ∧ gap.kind = .space ∧ l.kind = .leftBracket ∧
      indent.kind = .indent ∧ Scans p ⟨⟨0, []⟩, true⟩ (c.parametersCommand ++ openBracket) more
        [command, gap, l, indent] ⟨amongEntries, true⟩ := by
  obtain ⟨k, rest, rfl, hk⟩ := hmore
  obtain ⟨d, name, hname, _, _, hhash⟩ := hc.command.exists_cons (.inl rfl)
  let run : Text := ['\n', ' ', ' ', ' ', ' ']
  have htext : openBracket = ' ' :: ['['] ++ run := rfl
  let command : Token := ⟨.command, c.parametersCommand, p⟩
  let p₁ := p.advance c.parametersCommand
  let p₂ := p₁.advance (' ' :: ['['])
  let indent := Indentation.token p₂ .indent
  have hcommand : Scans p ⟨⟨0, []⟩, true⟩ c.parametersCommand (openBracket ++ k :: rest) [command]
      ⟨⟨0, []⟩, false⟩ := by
    have hemits : Token.Emits p c.parametersCommand (openBracket ++ k :: rest) [command] :=
      Token.emits_one hc.command (.inl rfl) (by decide)
    rw [hname] at hemits
    have hscans := hemits.lineStart hhash ⟨0, []⟩
    rwa [← hname] at hscans
  have hmark : Token.Emits p₁ (' ' :: ['[']) (run ++ k :: rest) _ :=
    .blank (by simp [Text.isBlank]) (Token.emits_mark rfl _ _)
  have hindent : Scans p₂ ⟨⟨0, []⟩, false⟩ run (k :: rest) [indent] ⟨amongEntries, true⟩ :=
    scans_breaks rfl (by simp [Lexeme.isRun, Text.isBlank]) hk
  exact ⟨command, _, _, indent, rfl, rfl, rfl, rfl, rfl,
    hcommand.append (htext ▸ (hmark ⟨0, []⟩).append hindent)⟩

private theorem scan_closing (p : Position) : ∃ (outdent : Token) (rest : List Token) (q : Position),
    outdent.kind = .outdent ∧
      Token.scan amongEntries p false closeBracket = .ok (outdent :: rest ++ [Token.eos q]) := by
  let outdent := Indentation.token p .outdent
  let p₁ := p.advance ['\n']
  let p₂ := p₁.advance [']', ';']
  let newline := Indentation.token p₂ .newline
  have houtdent : Scans p ⟨amongEntries, false⟩ ['\n'] [']', ';', '\n'] [outdent]
      ⟨⟨0, []⟩, true⟩ := scans_breaks (d := ']') rfl (by simp) (by decide)
  let bracket : Token := ⟨.rightBracket, [']'], p₁⟩
  let semicolon : Token := ⟨.semicolon, [';'], p₁.step ']'⟩
  have hmarks : Token.Emits p₁ [']', ';'] ['\n'] [bracket, semicolon] :=
    .mark rfl (Token.emits_mark rfl _ _)
  have hend : Token.scan ⟨0, []⟩ p₂ false ['\n'] = .ok [newline, Token.eos (p₂.step '\n')] :=
    Token.scan_newline _ p₂
  have hclosing := (houtdent.append (hmarks.lineStart (by decide) ⟨0, []⟩)).scan_eq_ok hend
  exact ⟨outdent, [bracket, semicolon, newline], p₂.step '\n', rfl, hclosing⟩

private theorem conforms_written {plan : Plan} (hplan : WritablePlan c plan) : ∃ tokens q,
    Token.stream (plan.text c) = .ok (tokens ++ [Token.eos q]) ∧
      Conforms c (tokens ++ [Token.eos q]) (plan.bound c) := by
  have hc := hplan.convention
  have hne : plan.drafts ≠ [] := by
    intro h
    exact hplan.header.parameters_ne_nil (by simp [Plan.declared, h])
  let start := Position.start.advance (plan.preamble c)
  let start' := start.advance (c.parametersCommand ++ openBracket)
  have hstart' : start' = Position.start.advance (plan.opening c) := by
    rw [Plan.opening, Position.advance_append]
  let entries := entriesText c plan.drafts
  obtain ⟨x, hx, hpreamble⟩ := scans_preamble hplan
    (startsLine_command hc (openBracket ++ (entries ++ closeBracket)))
  obtain ⟨command, gap, l, indent, hkind, hvalue, hgap, hl, hindent, hopening⟩ :=
    scans_command hc (startsLine_entries (c := c) hne closeBracket) start
  obtain ⟨y, hy, hentries⟩ := scans_entries hc hne hplan.drafts start' closeBracket
  obtain ⟨outdent, rest, q, houtdent, hclosing⟩ := scan_closing (start'.advance entries)
  have hrest := hopening.scan_eq_ok (hentries.scan_eq_ok hclosing)
  rw [List.append_assoc] at hrest
  have hscan := hpreamble.scan_eq_ok hrest
  have htext : plan.text c = plan.preamble c ++
      (c.parametersCommand ++ (openBracket ++ (entries ++ closeBracket))) := by
    simp [Plan.text, Plan.opening, entries]
  obtain ⟨others, hothers⟩ : ∃ others, plan.text c = '#' :: others := by
    simp [htext, Plan.preamble]
  have hstream : Token.stream (plan.text c) = Token.scan ⟨0, []⟩ .start true (plan.text c) := by
    rw [hothers, Token.stream_of_hash]
  rw [hstart'] at hy
  have hconforms : Conforms c (x ++ command :: gap :: l :: indent :: y ++
      outdent :: (rest ++ [Token.eos q])) (plan.bound c) :=
    .binding hx hkind hvalue hgap hl hindent hy houtdent
  refine ⟨x ++ command :: gap :: l :: indent :: y ++ outdent :: rest, q, ?_, ?_⟩
  · rw [hstream, htext, hscan]
    simp
  · simpa using hconforms

/-- A written file passes the check, which gives its header back with the parameters bound. -/
theorem validate_written (c : Convention) (plan : Plan) (hplan : WritablePlan c plan) :
    ∃ tokens, Token.stream (plan.text c) = .ok tokens ∧
      validate c tokens = .ok (plan.bound c) := by
  obtain ⟨tokens, q, hstream, hconforms⟩ := conforms_written hplan
  refine ⟨tokens ++ [Token.eos q], hstream, validate_of_conforms ?_⟩
  have hcomplete : TokenReader.complete (tokens ++ [Token.eos q]) = tokens ++ [Token.eos q] := by
    simp [TokenReader.complete, Token.eos]
  rwa [hcomplete]

end

/-- A parameter whose default value is a code block. -/
def conditionDraft : Draft where
  parameter := ⟨"Condition", ["Code"], "\x7b\x7d", none, none⟩
  name := "_condition"
  source := "\x7bhint\x7d"
  value := .code [⟨.command, "hint", ⟨1, 2⟩⟩]
  size := []

/-- A parameter that has its size checked, and a type without a literal. -/
def argumentsDraft : Draft where
  parameter := ⟨"Arguments", ["Array", "Anything"], "none", none, none⟩
  name := "_arguments"
  source := "[1]"
  value := .array [.number "1"]
  size := "2"

/-- A file with two parameters. -/
def waitPlan : Plan := ⟨["NetFusion"], ["Waits for a condition."], [conditionDraft, argumentsDraft]⟩

private theorem read_condition : Expression.read [⟨.leftBrace, "\x7b", ⟨1, 1⟩⟩,
    ⟨.command, "hint", ⟨1, 2⟩⟩, ⟨.rightBrace, "\x7d", ⟨1, 6⟩⟩, Token.eos ⟨1, 7⟩] =
      .ok conditionDraft.value [Token.eos ⟨1, 7⟩] := by cbv

private theorem writable_conditionDraft : WritableDraft .standard conditionDraft := by
  have hsize : ¬ NeedsSize .standard conditionDraft.parameter.types := by
    have hcheck : Convention.standard.needsSizeCheck conditionDraft.parameter.types = false := by cbv
    simp [← needsSizeCheck_iff, hcheck]
  have hsource : Token.stream conditionDraft.source = .ok [⟨.leftBrace, "\x7b", ⟨1, 1⟩⟩,
      ⟨.command, "hint", ⟨1, 2⟩⟩, ⟨.rightBrace, "\x7d", ⟨1, 6⟩⟩, Token.eos ⟨1, 7⟩] := by cbv
  exact {
    name := by simp [conditionDraft]
    source_line := by simp [conditionDraft, IsLine, Text.isBreak]
    source := ⟨_, ⟨1, 7⟩, hsource, read_condition⟩
    size_line := fun h => absurd h hsize
    size := fun h => absurd h hsize }

private theorem writable_argumentsDraft : WritableDraft .standard argumentsDraft := by
  have hsource : Token.stream argumentsDraft.source = .ok [⟨.leftBracket, "[", ⟨1, 1⟩⟩,
      ⟨.number, "1", ⟨1, 2⟩⟩, ⟨.rightBracket, "]", ⟨1, 3⟩⟩, Token.eos ⟨1, 4⟩] := by cbv
  have hsize : Token.stream argumentsDraft.size =
      .ok [⟨.number, "2", ⟨1, 1⟩⟩, Token.eos ⟨1, 2⟩] := by cbv
  exact {
    name := by simp [argumentsDraft]
    source_line := by simp [argumentsDraft, IsLine, Text.isBreak]
    source := ⟨_, ⟨1, 4⟩, hsource, by cbv⟩
    size_line := fun _ => by simp [argumentsDraft, IsLine, Text.isBreak]
    size := fun _ => ⟨_, ⟨1, 2⟩, hsize, .inl ⟨⟨.number, "2", ⟨1, 1⟩⟩, rfl, rfl⟩⟩ }

private theorem isPhrase_word {c : Char} {w : Text} (hc : Header.isCapital c = true) (hne : w ≠ [])
    (hw : ∀ d ∈ w, Text.isWord d = true) : Header.IsPhrase (c :: w) := by
  simpa using Header.IsPhrase.words hc hne hw .nil

private theorem writable_parameter {d : Draft} (hd : d ∈ waitPlan.drafts) :
    Header.WritableParameter .standard d.parameter := by
  have hcondition : Header.IsPhrase "Condition" := by
    rw [Text.ofString_eq]
    exact isPhrase_word (by decide) (by simp) (List.all_eq_true.1 (by decide))
  have harguments : Header.IsPhrase "Arguments" := by
    rw [Text.ofString_eq]
    exact isPhrase_word (by decide) (by simp) (List.all_eq_true.1 (by decide))
  have hd : d = conditionDraft ∨ d = argumentsDraft := by simpa [waitPlan] using hd
  exact {
    phrase := by rcases hd with rfl | rfl <;> assumption
    phrase_line := by rcases hd with rfl | rfl <;> simp [conditionDraft, argumentsDraft]
    types_ne_nil := by rcases hd with rfl | rfl <;> simp [conditionDraft, argumentsDraft]
    types_known := by
      rcases hd with rfl | rfl <;>
        simp [conditionDraft, argumentsDraft, Convention.isType_iff, Convention.standard]
    types_line := by rcases hd with rfl | rfl <;> simp [conditionDraft, argumentsDraft]
    types_apart := by rcases hd with rfl | rfl <;> simp [conditionDraft, argumentsDraft]
    documented_line := by rcases hd with rfl | rfl <;> simp [conditionDraft, argumentsDraft]
    unbound := by rcases hd with rfl | rfl <;> exact ⟨rfl, rfl⟩ }

private theorem writable_declared : Header.Writable .standard waitPlan.declared where
  title_line := by simp [Header.PlainLine, Convention.standard]
  title_start := by cbv
  authors_ne_nil := by simp [waitPlan, Plan.declared]
  authors_known := by simp [waitPlan, Plan.declared, Convention.standard, Convention.isAuthor]
  authors_line := by simp [Header.PlainLine, waitPlan, Plan.declared]
  authors_apart := by simp [waitPlan, Plan.declared]
  description_ne_nil := by simp [waitPlan, Plan.declared]
  sentences := by
    have hsentence : Header.isSentence "Waits for a condition." = true := by cbv
    simp only [waitPlan, Plan.declared, List.mem_singleton]
    rintro t rfl
    exact ⟨hsentence, by simp⟩
  parameters_ne_nil := by simp [waitPlan, Plan.declared]
  parameters := by
    intro p hp
    obtain ⟨d, hd, rfl⟩ := List.mem_map.1 hp
    exact writable_parameter hd

/-- The place of the code block is the one it has in the file. -/
theorem validate_waitPlan : ∃ tokens, Token.stream (waitPlan.text .standard) = .ok tokens ∧
    validate .standard tokens = .ok ⟨["NetFusion"], ["Waits for a condition."],
      [⟨"Condition", ["Code"], "\x7b\x7d", some "_condition",
          some (.code [⟨.command, "hint", ⟨17, 21⟩⟩])⟩,
        ⟨"Arguments", ["Array", "Anything"], "none", some "_arguments",
          some (.array [.number "1"])⟩]⟩ := by
  have hdrafts : ∀ d ∈ waitPlan.drafts, WritableDraft .standard d := by
    intro d hd
    obtain rfl | rfl : d = conditionDraft ∨ d = argumentsDraft := by simpa [waitPlan] using hd
    · exact writable_conditionDraft
    · exact writable_argumentsDraft
  have hbound : waitPlan.bound .standard = ⟨["NetFusion"], ["Waits for a condition."],
      [⟨"Condition", ["Code"], "\x7b\x7d", some "_condition",
          some (.code [⟨.command, "hint", ⟨17, 21⟩⟩])⟩,
        ⟨"Arguments", ["Array", "Anything"], "none", some "_arguments",
          some (.array [.number "1"])⟩]⟩ := by cbv
  rw [← hbound]
  exact validate_written .standard waitPlan ⟨writable_standard, writable_declared, hdrafts⟩

end SqfLayout.Layout
