import SqfLayout.Proofs.Layout.Breaking
import SqfLayout.Proofs.Layout.Literals
import SqfLayout.Proofs.Lexeme.NumberLiteral
import SqfLayout.Proofs.Token.Numbers

/-! Sentinels that are numbers. A number literal is one token, and where it stands for its type the file is
accepted. A minus sign in front of it is a token of its own, so a sentinel with a sign is met by no file. -/
namespace SqfLayout

namespace Token
open Indentation (width)

section
variable {source source' a m piece : Text} {k : Char} {tokens front behind x : List Token} {mark t : Token}

/-- Text that is put behind a mark gives its own tokens, and what stood there gives the same words. -/
private theorem exists_stream_of_inserted (hstream : stream source = .ok (front ++ mark :: behind))
    (hmark : mark.kind ∈ listMarks) (hplace : mark.position = .behind a)
    (hsource : Text.dropMark source = a ++ k :: m)
    (hpiece : Emits (.behind (a ++ [k])) piece m x) (hsource' : Text.dropMark source' = a ++ k :: (piece ++ m)) :
    ∃ behind', stream source' = .ok (front ++ mark :: (x ++ behind')) ∧ Redrawn .kept behind behind' := by
  obtain ⟨others, ys, hcut⟩ := exists_cutAt hstream hmark hplace hsource
  have hnested := nested_behind (s := opening source) (Indentation.nested_nil _) others
  obtain ⟨ys', hys', hsame⟩ := exists_cut_elsewhere hcut.cut_rest ((Position.behind (a ++ [k])).advance piece)
  refine ⟨ofLexemes ((opening source).behind others).levels
    (((Position.behind (a ++ [k])).advance piece).advance m) ys', ?_, ?_⟩
  · rw [hcut.again source' _ hsource', Position.start_advance, hpiece]
    unfold scan
    rw [hys']
    rfl
  · rw [hcut.behind_eq]
    refine redrawn_ofLexemes _ _ hsame (fun y hy => (Lexeme.wellFormed_of_cut hcut.cut_rest y hy).1) ?_ ?_
    · exact fun _ q run _ _ _ => tells_kept hnested.agrees q (width run)
    · exact fun hopened => iff_of_true hopened trivial

private theorem exists_first_of_number (h : stream source = .ok tokens) (ht : t ∈ tokens) (hkind : t.kind = .number) :
    ∃ c rest, t.value = c :: rest ∧ (c.isDigit = true ∨ c = '.' ∨ c = '$') := by
  obtain ⟨_, c, rest, -, -, hstarts, hvalue⟩ := exists_read_of_number h ht hkind
  have hread : Lexeme.read false c rest = .ok _ := Lexeme.read_number hstarts
  obtain ⟨hbegins, hne⟩ := Lexeme.read_isPrefix hread
  rw [Lexeme.text_plain, ← hvalue] at hbegins hne
  obtain ⟨d, more, hmore⟩ := List.exists_cons_of_ne_nil hne
  rw [hmore] at hbegins
  obtain ⟨rfl, -⟩ := List.cons_prefix_cons.1 hbegins
  exact ⟨d, more, hmore, Lexeme.first_of_startsNumber hstarts⟩

end
end Token

namespace Layout
open Token (Reflows)

section
variable {c : Convention} {p bound : Parameter} {done later bounds : List Parameter} {declared h : Header}
  {front x y y' more : List Token} {bracket : Token} {above below source : Text} {type text : Text}

/-- What stands behind the checks of types has no value, so any lines may break there. -/
private theorem BindsBeside.reflows (hx : BindsBeside c p x bracket y bound) (h : Reflows y y') :
    BindsBeside c p x bracket y' bound := by
  cases hx with
  | entry hl hname hsep hgap hx hsep' hgap' hbracket hr' hz hr =>
    obtain ⟨w, r, rfl, hw, hlast⟩ := h.exists_concat (by rw [hr]; rfl)
    obtain ⟨r', z, rfl, hfirst, -, hsize⟩ := hw.exists_cons (by rw [hr']; rfl)
    exact .entry hl hname hsep hgap hx hsep' hgap' hbracket (hfirst.trans hr') (hz.reflows hsize) (hlast.trans hr)

private theorem BindsBeside.exists_concat (hx : BindsBeside c p x bracket y bound) :
    ∃ z r, y = z ++ [r] ∧ r.kind = .rightBracket := by
  cases hx with
  | entry _ _ _ _ _ _ _ _ _ _ hr => exact ⟨_, _, rfl, hr⟩

private theorem BindsBeside.kind_eq (hx : BindsBeside c p x bracket y bound) : bracket.kind = .leftBracket := by
  cases hx
  assumption

private theorem BindsBeside.conforms {w behind : List Token} (hx : BindsBeside c p x bracket y bound)
    (hfront : Entered c declared done p later front) (hmore : Finishes c later more bounds)
    (hw : ChecksTypes c p.types w) (hbehind : Token.Redrawn .kept (y ++ more) behind) :
    ∃ h, Conforms c (front ++ (x ++ bracket :: (w ++ behind))) h ∧
      h.worded = Header.worded { declared with parameters := done ++ bound :: bounds } := by
  obtain ⟨z, r, rfl, hr⟩ := hx.exists_concat
  rw [List.append_assoc, List.singleton_append] at hbehind
  obtain ⟨z', r', more', rfl, hreflows, hkept⟩ :=
    hbehind.exists_append (by rw [hr]; rfl) (by simp [hr]) fun _ _ => trivial
  obtain ⟨bounds', hfinishes, hsame⟩ :=
    hmore.redrawn hkept.kept fun line _ => ⟨pays_kept later line, fun _ => trivial⟩
  have hbinds : Binds c p (x ++ bracket :: (w ++ (z' ++ [r']))) bound :=
    binds_iff_beside.2 ⟨_, _, _, _, hx.reflows hreflows, hw, rfl⟩
  refine ⟨_, hfront.conforms_iff.2 ⟨_, _, _, _, hbinds, hfinishes, by simp, rfl⟩, ?_⟩
  simp [Header.worded, hsame]

/-- Where the check of the types of an entry fails at once, its file is refused, whatever else there is. -/
private theorem BindsBeside.validate_error {t : Token} {s : List Token} {v : Violation}
    (hx : BindsBeside c p x bracket y bound) (hfront : Entered c declared done p later front)
    (hfails : ∀ s, ∃ m, typeChecks c p.types (t :: s) = .error v m) :
    validate c (front ++ (x ++ bracket :: t :: s)) = .error v := by
  obtain ⟨r, hnamed⟩ := hx.exists_front
  refine validate_of_fails fun rest => ?_
  obtain ⟨m, hm⟩ := hfails (s ++ rest)
  have hentry : Layout.entry c p (x ++ bracket :: t :: (s ++ rest)) = .error v m := by
    rw [entry_eq_front, bind_of_ok (hnamed _)]
    exact bind_of_error hm
  have hfile := hfront.fails (fails_entries_of_entry hentry later)
  simpa using hfile

/-- A parameter of one type, which has a number as its sentinel, and that number in the brackets that check the
type. In a file with nothing else amiss it is accepted if it has no sign. If a minus sign stands in front of it,
the file is cut into tokens as well, but the sign is refused. -/
theorem answer_number_sentinel
    (hstream : Token.stream (above ++ '[' :: ']' :: below) = .ok (front ++ (x ++ bracket :: (y ++ more))))
    (hplace : bracket.position = .behind (Text.dropMark above)) (hfront : Entered c declared done p later front)
    (hx : BindsBeside c p x bracket y bound) (hmore : Finishes c later more bounds) (htypes : p.types = [type])
    (hsentinel : c.sentinel? type = some (.number text)) :
    (Lexeme.IsNumber text → ∃ h, answer c (above ++ '[' :: (text ++ ']' :: below)) = .ok h ∧
      h.worded = Header.worded { declared with parameters := done ++ bound :: bounds }) ∧
    ∀ digits, Lexeme.IsNumber digits → text = '-' :: digits →
      (∃ tokens, Token.stream (above ++ '[' :: (text ++ ']' :: below)) = .ok tokens) ∧
      ∃ v, answer c (above ++ '[' :: (text ++ ']' :: below)) = .error v ∧
        v.problem.message = "Type " ++ Text.lowercase type ++ " in header, check for " ++ text ∧
        v.position = .behind (Text.dropMark above ++ ['[']) := by
  have hsource : ∀ m, Text.dropMark (above ++ '[' :: m) = Text.dropMark above ++ '[' :: m :=
    dropMark_append_cons above (by decide)
  have hbracket : bracket.kind ∈ Token.listMarks := by rw [hx.kind_eq]; decide
  rw [← List.append_assoc] at hstream
  have hinserted {piece : Text} {w : List Token} (hpiece : Token.Emits _ piece (']' :: below) w) :=
    Token.exists_stream_of_inserted hstream hbracket hplace (hsource _) hpiece (hsource _)
  have hbehind : ']' ∈ Lexeme.stops := by decide
  refine ⟨fun hnumber => ?_, ?_⟩
  · obtain ⟨behind, hstream', hredrawn⟩ := hinserted (Token.emits_one hnumber.isOne (.inr rfl) hbehind)
    have hchecks : ChecksTypes c p.types [⟨.number, text, .behind (Text.dropMark above ++ ['['])⟩] := by
      rw [htypes]
      refine .single ?_
      unfold ChecksType
      rw [hsentinel]
      exact .number (t := ⟨.number, text, _⟩) rfl
    obtain ⟨h, hconforms, hworded⟩ := hx.conforms hfront hmore hchecks hredrawn
    rw [List.append_assoc] at hstream'
    exact ⟨h, answer_eq_ok_iff.2 ⟨_, hstream', hconforms⟩, hworded⟩
  · rintro digits hdigits rfl
    let minus : Token := ⟨.operator, ['-'], .behind (Text.dropMark above ++ ['['])⟩
    have hminus : Token.Emits minus.position ['-'] (digits ++ ']' :: below) [minus] :=
      Token.emits_of_read (x := .plain .operator ['-']) (Lexeme.read_minus _) rfl rfl
    obtain ⟨behind, hstream', -⟩ := hinserted (hminus.append (Token.emits_one hdigits.isOne (.inr rfl) hbehind))
    rw [List.append_assoc front] at hstream'
    have hbegins : ¬ Begins (.number ('-' :: digits)) minus := by simp [Begins, minus]
    obtain ⟨v, hmessage, hposition, hfails⟩ := sentinel_of_not_begins type hbegins
    refine ⟨⟨_, hstream'⟩, v, (answer_of_stream hstream').trans ?_, hmessage, hposition⟩
    refine hx.validate_error hfront fun s => ?_
    rw [htypes, typeChecks_single, checkType, hsentinel]
    exact hfails s

/-- In an accepted file, a number that is the sentinel of a declared type starts as a number does. So no file
at all is accepted that declares a parameter of a type whose sentinel has a sign. -/
theorem exists_first_of_sentinel (hanswer : answer c source = .ok h) (hp : p ∈ h.parameters)
    (htype : type ∈ p.types) (hsentinel : c.sentinel? type = some (.number text)) :
    ∃ k rest, text = k :: rest ∧ (k.isDigit = true ∨ k = '.' ∨ k = '$') := by
  obtain ⟨tokens, hstream, hconforms⟩ := answer_eq_ok_iff.1 hanswer
  obtain ⟨i, hi, rfl⟩ := List.getElem_of_mem hp
  obtain ⟨declared, done, p, later, front, x, bound, more, bounds, -, hx, -, rfl, hparameters, rfl⟩ :=
    hconforms.exists_entered hi
  have hbound : h.parameters[done.length] = bound := by
    simp [hparameters]
  rw [hbound, hx.types_eq] at htype
  obtain ⟨j, hj⟩ := List.getElem?_of_mem htype
  obtain ⟨before, literal, back, hchecks, rfl, -⟩ := hx.exists_check hj
  unfold ChecksType at hchecks
  rw [hsentinel] at hchecks
  cases hchecks with
  | number ht => exact Token.exists_first_of_number hstream (by simp) ht

end

/-- A convention with one type, whose sentinel is the given number. -/
def countConvention (text : Text) : Convention :=
  ⟨"Other Project", ["Someone"], ["Number"], "script_component.hpp", "params", [("Number", .number text)]⟩

/-- A file that binds one parameter, up to the literal that checks its type. -/
def countAbove : Text :=
  "#include \"script_component.hpp\"\n/*\n    Other Project\n\n    Author: Someone\n\n    Description:\n" ++
    "    Counts things\n\n    Parameter(s):\n    0: Count <Number> (Default: 0)\n\n*/\n\nparams [\n" ++
    "    [\"_count\", 0, "

def countBelow : Text := "]\n];\n"

def countParameter : Parameter := ⟨"Count", ["Number"], "0", none, none⟩

def countHeader (p : Parameter) : Header := ⟨["Someone"], ["Counts things"], [p]⟩

def countFront : List Token :=
  [⟨.preprocessorStart, "#", ⟨1, 1⟩⟩, ⟨.preprocessorInclude, "script_component.hpp", ⟨1, 2⟩⟩,
    ⟨.newline, "\n", ⟨1, 32⟩⟩, ⟨.blockComment, (countAbove.drop 34).take 131, ⟨2, 1⟩⟩, ⟨.blank, [], ⟨13, 3⟩⟩,
    ⟨.newline, "\n", ⟨13, 3⟩⟩] ++
  [⟨.command, "params", ⟨15, 1⟩⟩, ⟨.space, " ", ⟨15, 7⟩⟩, ⟨.leftBracket, "[", ⟨15, 8⟩⟩, ⟨.indent, [], ⟨15, 9⟩⟩]

def countName : List Token :=
  ⟨.leftBracket, "[", ⟨16, 5⟩⟩ :: ⟨.string, "_count", ⟨16, 6⟩⟩ :: ⟨.comma, ",", ⟨16, 14⟩⟩ ::
    ⟨.space, " ", ⟨16, 15⟩⟩ :: [⟨.number, "0", ⟨16, 16⟩⟩] ++ [⟨.comma, ",", ⟨16, 17⟩⟩, ⟨.space, " ", ⟨16, 18⟩⟩]

def countBracket : Token := ⟨.leftBracket, "[", ⟨16, 19⟩⟩

def countBack : List Token := ⟨.rightBracket, "]", ⟨16, 20⟩⟩ :: [] ++ [⟨.rightBracket, "]", ⟨16, 21⟩⟩]

def countRest : List Token :=
  [⟨.outdent, [], ⟨16, 22⟩⟩, ⟨.rightBracket, "]", ⟨17, 1⟩⟩, ⟨.semicolon, ";", ⟨17, 2⟩⟩, ⟨.newline, "\n", ⟨17, 3⟩⟩,
    ⟨.eos, [], ⟨18, 1⟩⟩]

private theorem sentinel?_count (text : Text) : (countConvention text).sentinel? "Number" = some (.number text) :=
  Convention.sentinel?_eq_some_iff.2 ⟨[], [], rfl, by simp⟩

private theorem entered_count (text : Text) :
    Entered (countConvention text) (countHeader countParameter) [] countParameter [] countFront := by
  refine .first (.opening rfl rfl rfl rfl rfl ?_ rfl rfl) rfl rfl rfl rfl rfl rfl
  cbv

private theorem bindsBeside_count (text : Text) :
    BindsBeside (countConvention text) countParameter countName countBracket
    countBack ⟨"Count", ["Number"], "0", some "_count", some (.number "0")⟩ := by
  have hnone : ¬ NeedsSize (countConvention text) countParameter.types := by
    rintro ⟨type, htype, hsentinel⟩
    obtain rfl : type = "Number" := List.mem_singleton.1 htype
    rw [sentinel?_count] at hsentinel
    cases hsentinel
  exact .entry rfl rfl rfl rfl (.single (@Expression.Derives.number ⟨.number, "0", ⟨16, 16⟩⟩ rfl)) rfl rfl rfl rfl
    (.inr ⟨hnone, rfl⟩) rfl

private theorem stream_count : Token.stream (countAbove ++ '[' :: ']' :: countBelow) =
    .ok (countFront ++ (countName ++ countBracket :: (countBack ++ countRest))) :=
  @Token.stream_of_streamWithin 40 _ _ (by decide +kernel)

private theorem place_count : countBracket.position = .behind (Text.dropMark countAbove) ∧
    (⟨16, 20⟩ : Position) = .behind (Text.dropMark countAbove ++ ['[']) := by decide +kernel

private theorem isNumber_one : Lexeme.IsNumber "1" := by
  have hdigits : ∀ d ∈ ("1" : Text), d.isDigit = true := List.all_eq_true.1 (by decide +kernel)
  simpa using Lexeme.IsNumber.decimal hdigits .none .none (by decide +kernel)

/-- The sentinel `1` is met by this file, and the sentinel `-1` is not. -/
theorem answer_count_sentinels :
    (∃ h, answer (countConvention "1") (countAbove ++ '[' :: ("1" ++ ']' :: countBelow)) = .ok h) ∧
    ∃ v, answer (countConvention "-1") (countAbove ++ '[' :: ("-1" ++ ']' :: countBelow)) = .error v ∧
      v.problem.message = "Type number in header, check for -1" ∧ v.position = ⟨16, 20⟩ := by
  obtain ⟨hplace, hposition⟩ := place_count
  have hmessage : ("Type " ++ Text.lowercase "Number" ++ " in header, check for " ++ "-1" : Text) =
    "Type number in header, check for -1" := by decide +kernel
  obtain ⟨hmeets, -⟩ := answer_number_sentinel stream_count hplace (entered_count "1") (bindsBeside_count "1")
    (.nil rfl) rfl (sentinel?_count "1")
  obtain ⟨-, hrefuses⟩ := answer_number_sentinel stream_count hplace (entered_count "-1") (bindsBeside_count "-1")
    (.nil rfl) rfl (sentinel?_count "-1")
  obtain ⟨h, hanswer, -⟩ := hmeets isNumber_one
  obtain ⟨-, v, hrefused, hmessage', hposition'⟩ := hrefuses "1" isNumber_one (by decide +kernel)
  exact ⟨⟨h, hanswer⟩, v, hrefused, hmessage'.trans hmessage, hposition'.trans hposition.symm⟩

/-- Of the same file, with the sentinel itself in the place of the literal, only the one without a sign is
accepted. -/
theorem answer_signed_sentinel :
    (countConvention "-1").sentinel? "Number" = some (.number "-1") ∧
    answer (countConvention "1") (countAbove ++ '[' :: ("1" ++ ']' :: countBelow)) =
      .ok (countHeader ⟨"Count", ["Number"], "0", some "_count", some (.number "0")⟩) ∧
    answer (countConvention "-1") (countAbove ++ '[' :: ("-1" ++ ']' :: countBelow)) =
      .error ⟨.mismatch .number ⟨.operator, "-", ⟨16, 20⟩⟩ (some (.typeCheck "Number" (.number "-1"))),
        ⟨16, 20⟩⟩ := by
  have hstream : Token.stream (countAbove ++ '[' :: ("1" ++ ']' :: countBelow)) =
      .ok ((Token.streamWithin 40 (countAbove ++ '[' :: ("1" ++ ']' :: countBelow))).getD []) :=
    @Token.stream_of_streamWithin 40 _ _ (by decide +kernel)
  have hstream' : Token.stream (countAbove ++ '[' :: ("-1" ++ ']' :: countBelow)) =
      .ok ((Token.streamWithin 40 (countAbove ++ '[' :: ("-1" ++ ']' :: countBelow))).getD []) :=
    @Token.stream_of_streamWithin 40 _ _ (by decide +kernel)
  refine ⟨sentinel?_count "-1", (answer_of_stream hstream).trans ?_, (answer_of_stream hstream').trans ?_⟩
  · cbv
  · cbv

end Layout
end SqfLayout
