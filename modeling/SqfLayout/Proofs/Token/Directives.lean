import SqfLayout.Proofs.Lexeme.LogicalLine
import SqfLayout.Proofs.Token.Evaluation
import SqfLayout.Proofs.Token.Redrawn

/-! Directives among the tokens of a source. A `#` at the start of a line gives two tokens, and the value of
the second one is the logical line behind it. -/
namespace SqfLayout.Token
open Lexeme (LogicalLine isDirectiveWord)
open Text (Lacks)

section
variable {i : Indentation} {p final : Position} {ys : List (Position × Lexeme)} {front more : List Token} {u : Token}
  {lineStart : Bool}

/-- A token at the start of a line, in front of the end: it belongs to a run of line breaks, or it is the first
of a lexeme that is read as at the start of a line. -/
private theorem exists_lexeme_of_lineStart (hwell : ∀ y ∈ ys, y.2.WellFormed)
    (hend : ∀ j : Indentation, u ∉ j.finish final)
    (hfirst : front = [] → lineStart = true) (hfront : ∀ w ∈ front.getLast?, w.kind.isLayout = true)
    (h : ofLexemes i final ys = front ++ u :: more) :
    ∃ others q x later, ys = others ++ (q, x) :: later ∧ ((x.isBreaks = true ∧ u.position = q) ∨
      (x.isBreaks = false ∧ (∀ s : Stage, s.lineStart = lineStart → (s.behind others).lineStart = true) ∧
        ∃ j, u :: more = x.tokens q ++ ofLexemes j final later)) := by
  induction ys generalizing i front lineStart with
  | nil =>
    refine absurd ?_ (hend i)
    rw [show i.finish final = front ++ u :: more from h]
    simp
  | cons y ys ih =>
    obtain ⟨q, x⟩ := y
    obtain ⟨hx, hwell'⟩ := List.forall_mem_cons.1 hwell
    cases hbreaks : x.isBreaks with
    | false =>
      -- no word of a line stands last in front of its start
      have hnil {v : List Token} (hv : ∀ w ∈ v.getLast?, w.kind.isLayout = true) (hsub : v ⊆ x.tokens q) :
          v = [] := by
        obtain rfl | ⟨v, w, rfl⟩ := List.eq_nil_or_concat v
        · rfl
        · have hlayout := hv w (by simp)
          rw [(isLayout_of_lexeme hx q w (hsub (by simp))).1] at hlayout
          cases hlayout
      rw [ofLexemes_of_isBreaks_eq_false hbreaks] at h
      obtain ⟨z, hz, rfl⟩ | ⟨z, rfl, hz⟩ := exists_split h
      · obtain rfl := hnil hfront (hz ▸ List.subset_append_left _ _)
        exact ⟨[], q, x, ys, rfl, .inr ⟨hbreaks, fun s hs => hs.trans (hfirst rfl), i, by rw [hz]; rfl⟩⟩
      · have hbehind : z = [] → false = true := by
          rintro rfl
          rw [List.append_nil] at hfront
          exact absurd (hnil hfront (List.Subset.refl _)) (tokens_ne_nil hbreaks q)
        have hlast := fun w hw => hfront w (List.mem_getLast?_append_of_mem_getLast? hw)
        obtain ⟨others, q', x', later, rfl, hcases⟩ := ih hwell' hbehind hlast hz
        refine ⟨(q, x) :: others, q', x', later, rfl, ?_⟩
        exact hcases.imp_right (And.imp_right (And.imp_left fun hstart s _ =>
          hstart (s.after x) ((lineStart_after s x).trans hbreaks)))
    | true =>
      cases x with
      | breaks run =>
        rw [ofLexemes_breaks] at h
        obtain ⟨z, hz, -⟩ | ⟨z, rfl, hz⟩ := exists_split h
        · have hmem : u ∈ front ++ u :: z := by simp
          rw [← hz] at hmem
          obtain ⟨kind, -, rfl⟩ := List.mem_map.1 hmem
          exact ⟨[], q, .breaks run, ys, rfl, .inl ⟨hbreaks, rfl⟩⟩
        · have hlast := fun w hw => hfront w (List.mem_getLast?_append_of_mem_getLast? hw)
          obtain ⟨others, q', x', later, rfl, hcases⟩ := @ih _ z true hwell' (fun _ => rfl) hlast hz
          refine ⟨(q, .breaks run) :: others, q', x', later, rfl, ?_⟩
          exact hcases.imp_right (And.imp_right (And.imp_left fun hstart s _ =>
            hstart (s.after (.breaks run)) rfl))
      | _ => cases hbreaks

private theorem position_of_tokens {q : Position} {x : Lexeme} {ts : List Token} (hx : x.isBreaks = false)
    (h : u :: more = x.tokens q ++ ts) : u.position = q := by
  cases x with
  | breaks => cases hx
  | _ =>
    cases h
    rfl

private theorem exists_next {rest : Text} (hcut : Lexeme.cut p lineStart rest = .ok ys)
    (hrest : ∀ c ∈ rest.head?, Text.isBreak c = true) (i : Indentation) :
    ∃ next later, ofLexemes i (p.advance rest) ys = next :: later ∧ next.position = p ∧
      if rest = [] then next.kind = .outdent ∨ next.kind = .eos else next.kind.isLayout = true := by
  cases rest with
  | nil =>
    rw [Lexeme.cut] at hcut
    cases hcut
    have hne : i.finish p ≠ [] := by simp [Indentation.finish]
    obtain ⟨next, later, hnext⟩ := List.exists_cons_of_ne_nil hne
    obtain ⟨hplace, hkind⟩ := position_of_finish (hnext ▸ List.mem_cons_self : next ∈ i.finish p)
    exact ⟨next, later, hnext, hplace, by rwa [if_pos rfl]⟩
  | cons c rest =>
    rw [cut_of_read (Lexeme.read_breaks (hrest c rfl) rest)] at hcut
    obtain ⟨others, -, rfl⟩ := exists_of_map_ok hcut
    rw [ofLexemes_breaks]
    obtain ⟨hne, hkinds⟩ := layout_of_run i ((c :: rest).takeWhile Lexeme.isRun) others.isEmpty
    obtain ⟨kind, kinds, hcons⟩ := List.exists_cons_of_ne_nil hne
    rw [hcons] at hkinds ⊢
    exact ⟨_, _, rfl, rfl, by rw [if_neg (by simp)]; exact hkinds kind List.mem_cons_self⟩

end

/-- A `#` at the start of a line, unless an include line stands behind it, gives a token of its own and a
directive. The directive covers the logical line up to the layout or the end that comes next; a carriage return
behind a continued line takes another one along, and else its breaks are those that are read everywhere. -/
theorem stream_directive {source before body : Text} {front more : List Token} {u : Token}
    (h : stream source = .ok (front ++ u :: more)) (hfront : ∀ w ∈ front.getLast?, w.kind.isLayout = true)
    (hsource : Text.dropMark source = before ++ '#' :: body) (hplace : u.position = .behind before)
    (hname : body.takeWhile isDirectiveWord ≠ ("include" : Text)) :
    u.kind = .preprocessorStart ∧ ∃ t next later rest, more = t :: next :: later ∧
      t.kind = .preprocessorDirective ∧ t.position = .behind (before ++ ['#']) ∧ body = t.value ++ rest ∧
      LogicalLine ['\n', '\r'] t.value rest ∧ (LogicalLine ['\n'] t.value rest ↔ Lacks '\r' '\r' t.value) ∧
      next.position = .behind (before ++ '#' :: t.value) ∧
      if rest = [] then next.kind = .outdent ∨ next.kind = .eos else next.kind.isLayout = true := by
  obtain ⟨ys, hcut, htokens⟩ := exists_cut_of_stream h
  have hwell := fun y hy => (Lexeme.wellFormed_of_cut hcut y hy).1
  have hwhole : Text.dropMark source = before ++ ['#'] ++ body := by rw [hsource, List.append_cons]
  have hend (j : Indentation) : u ∉ j.finish (Position.start.advance (Text.dropMark source)) := by
    intro hmem
    have hlast := (position_of_finish hmem).1
    rw [hplace, ← Position.start_advance, hsource, Position.advance_append] at hlast
    exact Position.not_advance_le (by simp) (Position.le_of_eq hlast.symm)
  obtain ⟨others, q, x, later, rfl, hcases⟩ :=
    exists_lexeme_of_lineStart hwell hend (fun _ => rfl) hfront htokens.symm
  obtain ⟨k, m, rest, hsource', rfl, hread, hrest, hlater⟩ := exists_read_at hcut
  have hposition : u.position = .behind (margin source ++ lexedText others) := by
    obtain ⟨-, hposition⟩ | ⟨hbreaks, -, j, htokens'⟩ := hcases
    · exact hposition
    · exact position_of_tokens hbreaks htokens'
  obtain rfl : before = margin source ++ lexedText others := by
    rw [hposition, ← Position.start_advance, ← Position.start_advance] at hplace
    exact Position.eq_of_advance_eq ⟨_, hsource.symm⟩ ⟨_, hsource'.symm⟩ hplace.symm
  rw [hsource, List.append_cancel_left_eq] at hsource'
  obtain ⟨rfl, rfl⟩ := List.cons.inj hsource'
  obtain ⟨hbreaks, -⟩ | ⟨hbreaks, hstart, j, htokens'⟩ := hcases
  · exact absurd (isBreak_of_read hread hbreaks) (by decide)
  rw [hstart (opening source) rfl] at hread
  obtain rfl : x = .directive (Lexeme.logicalLine false body) := by
    have hdirective : Lexeme.readDirective body = .ok x := hread
    rw [Lexeme.readDirective, if_neg hname] at hdirective
    cases hdirective
    rfl
  have hbody : body = Lexeme.logicalLine false body ++ rest := (List.cons.inj hrest).2
  have hline := Lexeme.logicalLine_of_eq hbody
  obtain ⟨next, later', hnext, hplace', hkind⟩ := exists_next hlater hline.isBreak_rest j
  have hfinal : Position.start.advance (Text.dropMark source) =
      ((Position.behind (margin source ++ lexedText others)).advance
        (Lexeme.directive (Lexeme.logicalLine false body)).text).advance rest := by
    rw [Position.behind_advance, Position.behind_advance, Position.start_advance, List.append_assoc, ← hrest,
      hsource]
  rw [hfinal, hnext] at htokens'
  obtain ⟨rfl, rfl⟩ := List.cons.inj htokens'
  refine ⟨rfl, _, next, later', rest, rfl, rfl, ?_, hbody, hline, hline.iff_lacks, ?_, hkind⟩
  · exact Position.behind_advance _ ['#']
  · rw [hplace', Position.behind_advance]
    rfl

/-- A macro of two lines, with a blank behind its backslash, and the line behind it. -/
theorem stream_directive_define :
    stream "#define A \\ \n 1\nx" = .ok [⟨.preprocessorStart, "#", ⟨1, 1⟩⟩,
      ⟨.preprocessorDirective, "define A \\ \n 1", ⟨1, 2⟩⟩, ⟨.newline, "\n", ⟨2, 3⟩⟩, ⟨.command, "x", ⟨3, 1⟩⟩,
      eos ⟨3, 2⟩] ∧
    LogicalLine ['\n'] "define A \\ \n 1" "\nx" := by
  have hstream : stream "#define A \\ \n 1\nx" = .ok ([] ++ ⟨.preprocessorStart, "#", ⟨1, 1⟩⟩ ::
      [⟨.preprocessorDirective, "define A \\ \n 1", ⟨1, 2⟩⟩, ⟨.newline, "\n", ⟨2, 3⟩⟩, ⟨.command, "x", ⟨3, 1⟩⟩,
        eos ⟨3, 2⟩]) :=
    @stream_of_streamWithin 4 _ _ (by decide +kernel)
  refine ⟨hstream, ?_⟩
  have hsource : Text.dropMark "#define A \\ \n 1\nx" = [] ++ '#' :: "define A \\ \n 1\nx" := by decide +kernel
  obtain ⟨-, t, next, later, rest, hmore, -, -, hbody, -, hline, -⟩ :=
    stream_directive hstream (by simp) hsource (by decide) (by decide +kernel)
  obtain ⟨rfl, -⟩ := List.cons.inj hmore
  obtain rfl : ("\nx" : Text) = rest := by simpa using hbody
  refine hline.2 ?_
  simp [Text.lacks_cons]

/-- Behind a continued line, a carriage return takes the next one along, and the line behind that one too. -/
theorem stream_directive_swallows :
    stream "#a\\\r\rb" = .ok [⟨.preprocessorStart, "#", ⟨1, 1⟩⟩, ⟨.preprocessorDirective, "a\\\r\rb", ⟨1, 2⟩⟩,
      eos ⟨1, 7⟩] ∧
    LogicalLine ['\n'] "a\\\r" "\rb" ∧ ¬ LogicalLine ['\n'] "a\\\r\rb" [] := by
  refine ⟨@stream_of_streamWithin 4 _ _ (by decide +kernel), ?_, fun h => h.lacks ⟨"a\\", "b", by simp⟩⟩
  have hline : LogicalLine ['\n'] (("a\\" : Text) ++ ['\r'] ++ []) "\rb" :=
    .continued (by simp [Text.isBreak]) ⟨"a", [], by simp, by simp⟩ (.carriage (by simp))
      (.last (by simp) (by simp [Text.isBreak, Lexeme.not_continued_nil]))
  simpa using hline

end SqfLayout.Token
