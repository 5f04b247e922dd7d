import Mathlib.Data.List.Induction
import SqfLayout.Proofs.Lexeme.Standing
import SqfLayout.Proofs.Token.Pieces

/-! Every token and every fault stands at the place that counting the source before it gives. -/
namespace SqfLayout

/-- The place behind a text: one line more than it has line feeds, and one column more than there are
characters after the last of them. -/
def Position.behind (before : Text) : Position :=
  ⟨1 + before.count '\n', 1 + (before.reverse.takeWhile (· ≠ '\n')).length⟩

namespace Position

theorem start_advance (before : Text) : start.advance before = behind before := by
  induction before using List.reverseRecOn with
  | nil => rfl
  | append_singleton before c ih =>
    rw [advance_append, ih]
    by_cases hc : c = '\n'
    · simp [behind, step, hc, Nat.add_assoc]
    · simp [behind, step, hc, Nat.add_assoc, Nat.add_comm 1]

theorem behind_advance (before t : Text) : (behind before).advance t = behind (before ++ t) := by
  rw [← start_advance, ← advance_append, start_advance]

/-- One place is before another: on an earlier line, or on the same line and not further right. -/
instance : LE Position where
  le p q := p.line < q.line ∨ p.line = q.line ∧ p.column ≤ q.column

theorem le_def {p q : Position} : p ≤ q ↔ p.line < q.line ∨ p.line = q.line ∧ p.column ≤ q.column :=
  Iff.rfl

theorem le_refl (p : Position) : p ≤ p := .inr ⟨rfl, Nat.le_refl _⟩

theorem le_trans {p q r : Position} (hpq : p ≤ q) (hqr : q ≤ r) : p ≤ r := by
  rw [le_def] at *
  omega

private theorem le_step (p : Position) (c : Char) : p ≤ p.step c := by
  unfold step
  split
  · exact .inl (Nat.lt_succ_self _)
  · exact .inr ⟨rfl, Nat.le_succ _⟩

theorem le_advance (p : Position) (t : Text) : p ≤ p.advance t := by
  induction t generalizing p with
  | nil => exact le_refl p
  | cons c t ih => exact le_trans (le_step p c) (ih _)

end Position

namespace Token
open Lexeme (Blames Leads)

/-- Pieces behind the text `before` have their tokens where their text starts. The text of a directive
starts behind its `#`. -/
structure Placed (before : Text) (xs : List Piece) : Prop where
  places : ∀ front x others, xs = front ++ x :: others → ∀ t ∈ x.tokens,
    t.position = Position.behind (before ++ textOf front)
  directives : ∀ front x others, xs = front ++ x :: others → (∃ t ∈ x.tokens, t.kind.isDirective) →
    (before ++ textOf front).getLast? = some '#'

section
variable {before text : Text} {xs : List Piece}

private theorem pairwise_of_position {ts : List Token} {p : Position} (h : ∀ t ∈ ts, t.position = p) :
    ts.Pairwise fun t u => t.position ≤ u.position := by
  refine List.pairwise_iff_forall_sublist.2 fun {t u} htu => ?_
  rw [h t (htu.subset (by simp)), h u (htu.subset (by simp))]
  exact Position.le_refl p

private theorem Follow.placed (h : Follow before text xs) : Placed before xs := by
  suffices hall : ∀ front x others, xs = front ++ x :: others →
      (∀ t ∈ x.tokens, t.position = Position.behind (before ++ textOf front)) ∧
      ((∃ t ∈ x.tokens, t.kind.isDirective) → (before ++ textOf front).getLast? = some '#') from
    ⟨fun front x others hxs => (hall front x others hxs).1,
      fun front x others hxs => (hall front x others hxs).2⟩
  induction h with
  | nil => simp
  | @cons before _ _ y ys _ hplace _ hhash _ _ ih =>
    intro front x others hxs
    cases front with
    | nil =>
      cases hxs
      rw [← Position.start_advance]
      simpa [textOf] using And.intro hplace hhash
    | cons z front =>
      obtain ⟨rfl, hys⟩ := List.cons.inj hxs
      simpa [textOf] using ih front x others hys

theorem Follow.between (h : Follow before text xs) : ∀ t ∈ tokensOf xs,
    Position.start.advance before ≤ t.position ∧ t.position ≤ Position.start.advance (before ++ text) := by
  induction h with
  | nil => simp [tokensOf]
  | @cons before whole text x xs _ hplace _ _ htext _ ih =>
    intro t ht
    rcases List.mem_append.1 ht with ht | ht
    · rw [hplace t ht, Position.advance_append]
      exact ⟨Position.le_refl _, Position.le_advance _ _⟩
    · obtain ⟨hlow, hhigh⟩ := ih t ht
      rw [Position.advance_append] at hlow
      refine ⟨Position.le_trans (Position.le_advance _ _) hlow, ?_⟩
      rwa [htext, ← List.append_assoc]

private theorem Follow.sorted (h : Follow before text xs) :
    (tokensOf xs).Pairwise fun t u => t.position ≤ u.position := by
  induction h with
  | nil => exact .nil
  | @cons before whole text x xs _ hplace _ _ _ hxs ih =>
    refine List.pairwise_append.2 ⟨pairwise_of_position hplace, ih, ?_⟩
    intro t ht u hu
    rw [hplace t ht]
    refine Position.le_trans (Position.le_advance _ x.text) ?_
    rw [← Position.advance_append]
    exact (hxs.between u hu).1

end

/-- A source has no tokens if and only if lexemes lead from its margin to a problem. -/
theorem stream_eq_error_iff {source : Text} {fault : LexicalFault} : stream source = .error fault ↔
    ∃ xs lineStart before rest, Leads true (body source) xs lineStart (before ++ rest) ∧
      Blames lineStart fault.problem before rest ∧
      fault.position = Position.behind (margin source ++ xs.flatMap Lexeme.text ++ before) := by
  have hcut : stream source = .error fault ↔
      Lexeme.cut (Position.start.advance (margin source)) true (body source) = .error fault := by
    rw [stream_eq]
    cases Lexeme.cut (Position.start.advance (margin source)) true (body source) <;> simp [Except.map]
  rw [hcut, Lexeme.cut_eq_error_iff]
  simp only [Position.start_advance, Position.behind_advance, List.append_assoc]

private theorem Spells.eq_comment {group : List Token} {piece : Text} {t : Token} (h : Spells group piece)
    (ht : t ∈ group) (hkind : t.kind = .blockComment) : piece = "/*" ++ t.value ++ "*/" := by
  cases h with
  | blockComment =>
    obtain rfl := List.mem_singleton.1 ht
    rfl
  | start hk | inclusion hk | directive hk | string hk | verbatim hk =>
    obtain rfl := List.mem_singleton.1 ht
    rw [hkind] at hk
    cases hk
  | layout _ hgroup =>
    have hlayout := hgroup t ht
    rw [hkind] at hlayout
    cases hlayout

theorem exists_place_of_mem {source : Text} {tokens : List Token} {t : Token}
    (h : stream source = .ok tokens) (ht : t ∈ tokens) :
    ∃ before rest, Text.dropMark source = before ++ rest ∧ t.position = Position.behind before ∧
      (t.kind = .blockComment → ∃ after, rest = "/*" ++ (t.value ++ ("*/" ++ after))) := by
  obtain ⟨xs, closing, rfl, hclosing, hfollow⟩ := exists_pieces_of_stream h
  have hend {t : Token} (hkind : t.kind ≠ .blockComment)
      (hplace : t.position = Position.start.advance (Text.dropMark source)) :
      ∃ before rest, Text.dropMark source = before ++ rest ∧ t.position = Position.behind before ∧
        (t.kind = .blockComment → ∃ after, rest = "/*" ++ (t.value ++ ("*/" ++ after))) :=
    ⟨Text.dropMark source, [], (List.append_nil _).symm, by rw [hplace, Position.start_advance],
      fun h => absurd h hkind⟩
  rcases List.mem_append.1 ht with ht | ht
  · rcases List.mem_append.1 ht with ht | ht
    · obtain ⟨x, hx, htx⟩ := List.mem_flatMap.1 ht
      obtain ⟨front, back, hxs⟩ := List.append_of_mem hx
      refine ⟨margin source ++ textOf front, x.text ++ textOf back, ?_,
        hfollow.placed.places front x back hxs t htx, fun hkind => ⟨textOf back, ?_⟩⟩
      · rw [← margin_append_body, ← hfollow.textOf_eq, hxs]
        simp [textOf]
      · rw [(hfollow.spells x hx).eq_comment htx hkind]
        simp
    · rw [hclosing t ht]
      exact hend (by simp [Indentation.token]) rfl
  · rw [List.mem_singleton.1 ht]
    exact hend (by simp [eos]) rfl

theorem exists_place_of_fault {source : Text} {fault : LexicalFault} (h : stream source = .error fault) :
    ∃ before rest, Text.dropMark source = before ++ rest ∧ fault.position = Position.behind before := by
  obtain ⟨xs, lineStart, before, rest, hleads, -, hplace⟩ := stream_eq_error_iff.1 h
  refine ⟨margin source ++ xs.flatMap Lexeme.text ++ before, rest, ?_, hplace⟩
  rw [← margin_append_body, hleads.eq_append]
  simp only [List.append_assoc]

theorem pairwise_of_stream {source : Text} {tokens : List Token} (h : stream source = .ok tokens) :
    tokens.Pairwise fun t u => t.position ≤ u.position := by
  obtain ⟨xs, closing, rfl, hclosing, hfollow⟩ := exists_pieces_of_stream h
  have hend : ∀ t ∈ closing ++ [Token.eos (Position.start.advance (Text.dropMark source))],
      t.position = Position.start.advance (Text.dropMark source) := by
    intro t ht
    rcases List.mem_append.1 ht with ht | ht
    · rw [hclosing t ht]
      rfl
    · rw [List.mem_singleton.1 ht]
      rfl
  rw [List.append_assoc]
  refine List.pairwise_append.2 ⟨hfollow.sorted, pairwise_of_position hend, ?_⟩
  intro t ht u hu
  rw [hend u hu, ← margin_append_body]
  exact (hfollow.between t ht).2

end Token
end SqfLayout
