import SqfLayout.Proofs.Header.Acceptance
import SqfLayout.Proofs.Layout.Acceptance
import SqfLayout.Proofs.Text.Lines
import SqfLayout.Proofs.Token.Pieces
import SqfLayout.Skeleton

/-! A skeleton passes the check of its own convention exactly when the convention lets it. -/
namespace SqfLayout

/-- Puts values in place of their names in braces. What was read of an open name is kept. -/
def Text.substitute (values : List (Text × Text)) : Option Text → Text → Text
  | _, [] => []
  | none, c :: rest =>
    if c = '\x7b' then substitute values (some []) rest else c :: substitute values none rest
  | some name, c :: rest =>
    if c = '\x7d' then (values.lookup name).getD [] ++ substitute values none rest
    else substitute values (some (name ++ [c])) rest

namespace Convention

def template : Text :=
  "#include \"\x7binclude\x7d\"\n/*\n    \x7btitle\x7d\n\n    Author: \x7bauthor\x7d\n\n" ++
    "    Description:\n    Does nothing yet.\n\n    Parameter(s):\n    None\n*/\n\n"

def values (c : Convention) (author? : Option Text) : List (Text × Text) :=
  [("include", c.header), ("title", c.title), ("author", c.authorOf author?)]

private theorem substitute_template (c : Convention) (author? : Option Text) :
    Text.substitute (c.values author?) none template = c.skeleton author? := by
  simp [template, Text.substitute, values, skeleton, List.lookup]

end Convention

namespace Header
open Text (Lacks)

/-- The lines of the comment of a new file. -/
def skeletonLines (c : Convention) (author : Text) : List Text :=
  [[], indent c.title, [], indent ("Author: " ++ author), [], indent "Description:",
    indent "Does nothing yet.", [], indent "Parameter(s):", indent "None", []]

def skeletonHeader (author : Text) : Header := ⟨Text.splitItems author, ["Does nothing yet."], []⟩

section
variable {c : Convention} {author : Text} {h : Header}

private theorem describes_skeleton (htitle : Flush c.title)
    (hknown : ∀ name ∈ Text.splitItems author, c.isAuthor name = true) :
    Describes c (skeletonLines c author) (skeletonHeader author) := by
  have hsentence : ∀ t ∈ (skeletonHeader author).description, Flush t ∧ isSentence t = true := by
    refine List.forall_mem_singleton.2 ⟨flush_iff.2 (by simp; decide), by cbv⟩
  have hgap : Gap [[]] := .inr rfl
  have hopens : Opens c _ (skeletonHeader author) :=
    @Opens.sections c author _ _ _ _ _ htitle hgap rfl hknown hgap (by simp [skeletonHeader]) hsentence hgap
      .none
  exact ⟨_, [[]], by simp [skeletonLines, skeletonHeader], hopens, fun hne => absurd rfl hne⟩

private theorem isAuthor_of_describes (hlines : Describes c (skeletonLines c author) h) :
    ∀ name ∈ Text.splitItems author, c.isAuthor name = true := by
  obtain ⟨front, tail, hsplit, hopens, -⟩ := hlines
  cases hopens with
  | @sections names _ gap gap' gap'' lines _ hgap hnames hknown =>
    have hauthor : author = names := by
      obtain rfl | rfl := hgap
      · have hthird := congrArg (fun lines => (lines.drop 2).head?) hsplit
        simp [skeletonLines, indent] at hthird
      · simpa [skeletonLines, indent] using congrArg (fun lines => (lines.drop 3).head?) hsplit
    rwa [hauthor, hnames]

private theorem plainLine_title {body more : Text} (hstarts : body <+: '\n' :: (indent c.title ++ '\n' :: more))
    (hlacks : Lacks '*' '/' body) (hlines : Describes c (linesOf body) h) :
    PlainLine c.title ∧ Flush c.title := by
  obtain ⟨front, tail, hsplit, hopens, -⟩ := hlines
  obtain ⟨hflush, others, hline⟩ : Flush c.title ∧ ∃ others, linesOf body = [] :: indent c.title :: others := by
    cases hopens with
    | sections htitle => exact ⟨htitle, _, hsplit⟩
  refine ⟨?_, hflush⟩
  cases body with
  | nil => simp [linesOf, Text.splitLines] at hline
  | cons d body =>
    obtain ⟨rfl, hbody⟩ := List.cons_prefix_cons.1 hstarts
    obtain ⟨line, others', hfirst, hfeed, hstart⟩ := Text.exists_splitLines body
    have hread : Text.dropReturn line = indent c.title := by
      have hsecond := congrArg (fun lines => (lines.drop 1).head?) hline
      simpa [linesOf, Text.splitLines, hfirst] using hsecond
    -- Only a line feed can stand behind the title, and a line has none.
    obtain ⟨end', rfl⟩ : indent c.title <+: line := hread ▸ Text.dropReturn_isPrefix line
    have hend : end' <+: '\n' :: more := (List.prefix_append_right_inj _).1 (hstart.trans hbody)
    obtain rfl | ⟨_, rfl, -⟩ := List.prefix_cons_iff.1 hend
    · rw [List.append_nil] at hread hfeed hstart
      have htitle : c.title <:+: '\n' :: body :=
        ((List.suffix_append _ _).isInfix.trans hstart.isInfix).trans (List.suffix_cons _ _).isInfix
      refine ⟨fun hmem => hfeed (List.mem_append_right _ hmem), fun hclose => hlacks (hclose.trans htitle), ?_⟩
      intro hreturn
      refine Text.dropReturn_eq_self_iff.1 hread ?_
      rw [indent, List.getLast?_append, hreturn]
      rfl
    · simp at hfeed

def skeletonComment (c : Convention) (author : Text) : Text :=
  List.intercalate ['\n'] (skeletonLines c author)

private theorem skeletonComment_eq (c : Convention) (author : Text) : skeletonComment c author =
    '\n' :: (indent c.title ++ '\n' :: List.intercalate ['\n'] ((skeletonLines c author).drop 2)) := by
  simp [skeletonComment, skeletonLines]

private theorem plainLine_of_mem_skeleton (htitle : PlainLine c.title) (hauthor : PlainLine author) :
    ∀ l ∈ skeletonLines c author, PlainLine l := by
  have hline := plainLine_indent (plainLine_append (t := "Author: ") (by simp) hauthor)
  have hempty : PlainLine [] := by simp [PlainLine]
  have hfixed : PlainLine (indent "Description:") ∧ PlainLine (indent "Does nothing yet.") ∧
      PlainLine (indent "Parameter(s):") ∧ PlainLine (indent "None") := by
    simp [PlainLine, indent]
  obtain ⟨hdescription, hsentence, hparameters, hnone⟩ := hfixed
  intro l hl
  simp only [skeletonLines, List.mem_cons, List.not_mem_nil, or_false] at hl
  rcases hl with rfl | rfl | rfl | rfl | rfl | rfl | rfl | rfl | rfl | rfl | rfl
  · exact hempty
  · exact plainLine_indent htitle
  · exact hempty
  · exact hline
  · exact hempty
  · exact hdescription
  · exact hsentence
  · exact hempty
  · exact hparameters
  · exact hnone
  · exact hempty

private theorem linesOf_skeletonComment (htitle : PlainLine c.title) (hauthor : PlainLine author) :
    linesOf (skeletonComment c author) = skeletonLines c author :=
  linesOf_intercalate (by simp [skeletonLines]) (plainLine_of_mem_skeleton htitle hauthor)

private theorem lacks_skeletonComment (htitle : PlainLine c.title) (hauthor : PlainLine author) :
    Lacks '*' '/' (skeletonComment c author) :=
  Text.lacks_intercalate (by decide) (by decide)
    fun l hl => (plainLine_of_mem_skeleton htitle hauthor l hl).2.1

/-- A comment that is read at all gives back the title, so that it ends at its own delimiter and the
authors are read from their own line. -/
private theorem title_and_authors_of_describes {body : Text} (hauthor : PlainLine author)
    (hbody : Lexeme.commentBody (skeletonComment c author ++ "*/\n\n") = some body)
    (hlines : Describes c (linesOf body) h) : PlainLine c.title ∧ Flush c.title ∧
      ∀ name ∈ Text.splitItems author, c.isAuthor name = true := by
  have hstarts : body <+: '\n' :: (indent c.title ++ '\n' ::
      (List.intercalate ['\n'] ((skeletonLines c author).drop 2) ++ "*/\n\n")) := by
    simpa [skeletonComment_eq] using (List.prefix_append _ _).trans (Lexeme.commentBody_isPrefix hbody)
  obtain ⟨htitle, hflush⟩ := plainLine_title hstarts (Lexeme.lacks_of_commentBody hbody) hlines
  have hclosed : Lexeme.commentBody (skeletonComment c author ++ "*/\n\n") =
      some (skeletonComment c author) := by
    simpa using Lexeme.commentBody_closed (lacks_skeletonComment htitle hauthor)
  cases hbody.symm.trans hclosed
  rw [linesOf_skeletonComment htitle hauthor] at hlines
  exact ⟨htitle, hflush, isAuthor_of_describes hlines⟩

end
end Header

namespace Token

private theorem stream_include {path : Text} {tokens : List Token}
    (h : stream ('#' :: ("include \"" ++ path)) = .ok tokens) : ∃ hash file others,
      tokens = hash :: file :: others ∧ file.value = path.takeWhile PathStyle.quotes.holds := by
  have hread := Lexeme.read_include path
  split at hread
  · rw [stream_of_hash, scan_of_read hread rfl (eq_append_drop_of_read hread)] at h
    obtain ⟨others, -, rfl⟩ := exists_of_map_ok h
    exact ⟨_, _, others, rfl, rfl⟩
  · rw [stream_of_hash, scan, cut_of_stuck hread] at h
    cases h

private theorem stream_opening {path : Text} (hpath : ∀ d ∈ path, d ≠ '"' ∧ Text.isBreak d = false) (more : Text) :
    ∃ hash file line p, hash.kind = .preprocessorStart ∧ file.kind = .preprocessorInclude ∧
      file.value = path ∧ line.kind = .newline ∧
      stream ('#' :: ("include \"" ++ (path ++ '"' :: '\n' :: '/' :: '*' :: more))) =
        (scan ⟨0, []⟩ p true ('/' :: '*' :: more)).map ([hash, file, line] ++ ·) := by
  obtain ⟨hash, file, line, hhash, hfile, hvalue, hline, hopening⟩ := scans_opening hpath more
  let inclusion : Text := '#' :: ("include \"" ++ path ++ ['"'])
  have htext : '#' :: ("include \"" ++ (path ++ '"' :: '\n' :: '/' :: '*' :: more)) =
      inclusion ++ ['\n'] ++ '/' :: '*' :: more := by simp [inclusion]
  refine ⟨hash, file, line, Position.start.advance (inclusion ++ ['\n']), hhash, hfile, hvalue, hline, ?_⟩
  rw [stream_of_hash, htext]
  exact hopening

private theorem scan_comment {i : Indentation} {p : Position} {lineStart : Bool} {t : Text} {tokens : List Token}
    (h : scan i p lineStart ('/' :: '*' :: t) = .ok tokens) : ∃ body others,
      Lexeme.commentBody t = some body ∧ tokens = ⟨.blockComment, body, p⟩ :: others := by
  have hread := @Lexeme.read_slash_star lineStart t
  cases hbody : Lexeme.commentBody t with
  | none =>
    rw [hbody] at hread
    rw [scan, cut_of_stuck hread] at h
    cases h
  | some body =>
    rw [hbody] at hread
    rw [scan_of_read hread rfl (eq_append_drop_of_read hread)] at h
    obtain ⟨others, -, rfl⟩ := exists_of_map_ok h
    exact ⟨body, others, rfl, rfl⟩

private theorem scan_comment_end {body : Text} (hbody : Text.Lacks '*' '/' body) (p : Position) :
    ∃ blank line q, blank.kind = .blank ∧ line.kind = .newline ∧
      scan ⟨0, []⟩ p true ('/' :: '*' :: (body ++ "*/\n\n")) =
        .ok [⟨.blockComment, body, p⟩, blank, line, eos q] := by
  let comment : Text := '/' :: ('*' :: (body ++ ['*', '/']))
  let p' := p.advance comment
  have hcomment : Scans p ⟨⟨0, []⟩, true⟩ comment ['\n', '\n'] [⟨.blockComment, body, p⟩]
      ⟨⟨0, []⟩, false⟩ := scans_comment hbody _
  have hend : scan ⟨0, []⟩ p' false ['\n', '\n'] =
      .ok [Indentation.token p' .blank, Indentation.token p' .newline, eos (p'.advance ['\n', '\n'])] := by
    rw [scan_last_run rfl (by simp [Lexeme.isRun, Text.isBreak])]
    rfl
  have htext : '/' :: '*' :: (body ++ "*/\n\n") = comment ++ ['\n', '\n'] := by simp [comment]
  refine ⟨Indentation.token p' .blank, Indentation.token p' .newline, p'.advance ['\n', '\n'], rfl, rfl, ?_⟩
  rw [htext]
  exact hcomment.scan_eq_ok hend

end Token

namespace Layout
open Header (PlainLine Flush linesOf indent skeletonComment skeletonHeader skeletonLines)

/-- What a convention must be like for a file of an author to begin as it asks. -/
structure Presentable (c : Convention) (author : Text) : Prop where
  header : ∀ d ∈ c.header, d ≠ '"' ∧ Text.isBreak d = false
  title_line : PlainLine c.title
  title_start : Flush c.title
  authors : ∀ name ∈ Text.splitItems author, name ∈ c.authors

section
variable {c : Convention} {author? : Option Text}

private theorem skeleton_eq (c : Convention) (author? : Option Text) : c.skeleton author? =
    '#' :: ("include \"" ++ (c.header ++ '"' :: '\n' :: '/' :: '*' ::
      (skeletonComment c (c.authorOf author?) ++ "*/\n\n"))) := by
  simp [Convention.skeleton, skeletonComment, skeletonLines, indent]

private theorem Conforms.exists_opening {tokens : List Token} {h : Header} (hconforms : Conforms c tokens h) :
    ∃ hash file line comment rest h', tokens = hash :: file :: line :: comment :: rest ∧
      file.value = c.header ∧ Header.read c comment.position.line comment.value = .ok h' := by
  cases hconforms with
  | plain hopening =>
    cases hopening with
    | opening _ _ hheader _ _ hread => exact ⟨_, _, _, _, _, _, rfl, hheader, hread⟩
  | binding hopening =>
    cases hopening with
    | opening _ _ hheader _ _ hread => exact ⟨_, _, _, _, _, _, rfl, hheader, hread⟩

private theorem answer_skeleton (hauthor : PlainLine (c.authorOf author?))
    (h : Presentable c (c.authorOf author?)) :
    answer c (c.skeleton author?) = .ok (skeletonHeader (c.authorOf author?)) := by
  have hlines := Header.linesOf_skeletonComment h.title_line hauthor
  have hlacks := Header.lacks_skeletonComment h.title_line hauthor
  have hdescribes := Header.describes_skeleton h.title_start
    fun name hname => Convention.isAuthor_iff.2 (h.authors name hname)
  obtain ⟨hash, file, line, p, hhash, hfile, hvalue, hline, hopening⟩ :=
    Token.stream_opening h.header (skeletonComment c (c.authorOf author?) ++ "*/\n\n")
  obtain ⟨blank, line', q, hblank, hline', hend⟩ := Token.scan_comment_end hlacks p
  rw [← skeleton_eq, hend] at hopening
  refine answer_eq_ok_iff.2 ⟨_, hopening, ?_⟩
  have hread := Header.read_of_describes (hlines.symm ▸ hdescribes) p.line
  have hdeclares : Declares c [hash, file, line,
      ⟨.blockComment, skeletonComment c (c.authorOf author?), p⟩, blank, line'] _ :=
    .opening hhash hfile hvalue hline rfl hread hblank hline'
  have hrest : ¬ StartsBinding c [Token.eos q] := by
    rintro ⟨t, more, heq, ht, -⟩
    cases heq
    cases ht
  have hconforms := Conforms.plain hdeclares rfl hrest
  exact hconforms

private theorem presentable_of_answer {h : Header} (hauthor : PlainLine (c.authorOf author?))
    (haccepted : answer c (c.skeleton author?) = .ok h) : Presentable c (c.authorOf author?) := by
  obtain ⟨_, hstream, hconforms⟩ := answer_eq_ok_iff.1 haccepted
  obtain ⟨hash, file, line, comment, rest, header, rfl, hfile, hread⟩ := hconforms.exists_opening
  rw [skeleton_eq] at hstream
  have hheader : ∀ d ∈ c.header, d ≠ '"' ∧ Text.isBreak d = false := by
    obtain ⟨_, _, _, heq, hvalue⟩ := Token.stream_include hstream
    cases heq
    intro d hd
    rw [← hfile, hvalue] at hd
    simpa [PathStyle.holds, PathStyle.closing] using List.mem_takeWhile_imp hd
  obtain ⟨_, _, _, p, -, -, -, -, hopening⟩ :=
    Token.stream_opening hheader (skeletonComment c (c.authorOf author?) ++ "*/\n\n")
  rw [hopening] at hstream
  obtain ⟨_, hscan, heq⟩ := Token.exists_of_map_ok hstream
  obtain ⟨body, others, hbody, rfl⟩ := Token.scan_comment hscan
  cases heq
  obtain ⟨htitle, hflush, hknown⟩ :=
    Header.title_and_authors_of_describes hauthor hbody (Header.describes_of_read hread)
  exact ⟨hheader, htitle, hflush, fun name hname => Convention.isAuthor_iff.1 (hknown name hname)⟩

/-- The file that a convention generates for an author is conformant if and only if the convention
lets it. It then declares that author and no parameters. -/
theorem answer_skeleton_ok_iff (render : Text → List (Text × Text) → Text)
    (hrender : ∀ values,
      render Convention.template values = Text.substitute values none Convention.template)
    (c : Convention) (author? : Option Text) (hauthor : PlainLine (c.authorOf author?)) :
    render Convention.template (c.values author?) = c.skeleton author? ∧
      ∀ h, answer c (render Convention.template (c.values author?)) = .ok h ↔
        Presentable c (c.authorOf author?) ∧ h = skeletonHeader (c.authorOf author?) := by
  have hskeleton : render Convention.template (c.values author?) = c.skeleton author? :=
    (hrender _).trans (c.substitute_template author?)
  refine ⟨hskeleton, fun h => ?_⟩
  rw [hskeleton]
  constructor
  · intro haccepted
    have hpresentable := presentable_of_answer hauthor haccepted
    exact ⟨hpresentable, Except.ok.inj (haccepted.symm.trans (answer_skeleton hauthor hpresentable))⟩
  · rintro ⟨hpresentable, rfl⟩
    exact answer_skeleton hauthor hpresentable

/-- An author's name may hold the mark of a comment. -/
theorem answer_skeleton_ok_joko :
    answer .standard (Text.substitute (Convention.standard.values (some "joko // Jonas")) none
      Convention.template) = .ok ⟨["joko // Jonas"], ["Does nothing yet."], []⟩ := by
  have hauthor : PlainLine (Convention.standard.authorOf (some "joko // Jonas")) := by
    simp [PlainLine]
  have hpresentable : Presentable .standard (Convention.standard.authorOf (some "joko // Jonas")) := by
    refine ⟨?_, ?_, ?_, ?_⟩
    · simp [Convention.standard, Text.isBreak]
    · simp [Convention.standard, PlainLine]
    · exact Header.flush_iff.2 (by simp [Convention.standard]; decide)
    · simp [Convention.standard, Text.splitItems]
  have haccepted := answer_skeleton_ok_iff (fun template values => Text.substitute values none template)
    (fun _ => rfl) .standard (some "joko // Jonas") hauthor
  exact (haccepted.2 _).2 ⟨hpresentable, by cbv⟩

end
end Layout
end SqfLayout
