import Mathlib.Data.List.Induction
import SqfLayout.Proofs.Token.Places

/-! Lines of a text, found by their number and by a place in them. -/
namespace SqfLayout
namespace Text

/-- What stands behind the last line feed. -/
def lastLine (t : Text) : Text := (t.reverse.takeWhile (· ≠ '\n')).reverse

private theorem eq_of_splitLines_eq_singleton {t line : Text} (h : splitLines t = [line]) : t = line := by
  simpa [List.intercalate] using (splitLines_eq_iff.1 h).2.2

private theorem exists_splitLines_append (t : Text) : ∃ front, front.length = t.count '\n' ∧
    ∀ more, splitLines (t ++ more) = front ++ (splitLines more).modifyHead (lastLine t ++ ·) := by
  have hnil (pieces : List Text) : pieces.modifyHead (([] : Text) ++ ·) = pieces := by
    cases pieces <;> rfl
  induction t using List.reverseRecOn with
  | nil => exact ⟨[], rfl, fun more => (hnil _).symm⟩
  | append_singleton t c ih =>
    obtain ⟨front, hfront, hmore⟩ := ih
    by_cases hc : c = '\n'
    · subst hc
      have hlast : lastLine (t ++ ['\n']) = [] := by simp [lastLine]
      refine ⟨front ++ [lastLine t], by simp [hfront], fun more => ?_⟩
      rw [List.append_assoc, List.singleton_append, hmore, splitLines, if_pos rfl, hlast, hnil]
      simp
    · have hlast : lastLine (t ++ [c]) = lastLine t ++ [c] := by simp [lastLine, hc]
      refine ⟨front, by simp [hfront, hc], fun more => ?_⟩
      rw [List.append_assoc, List.singleton_append, hmore, splitLines, if_neg hc,
        List.modifyHead_modifyHead, hlast]
      simp [Function.comp_def]

section
variable {t piece next : Text} {front back : List Text}

private theorem lines_of_piece (h : splitLines t = front ++ piece :: next :: back) :
    (lines t)[front.length]? = some (dropReturn piece) := by
  unfold lines
  dsimp only
  rw [h, List.dropLast_append_of_ne_nil (by simp), List.dropLast_cons_of_ne_nil (by simp),
    List.map_append, List.map_cons, List.append_assoc]
  rw [List.getElem?_append_right (by simp)]
  simp

private theorem lines_of_last (h : splitLines t = front ++ [piece]) (hne : piece ≠ []) :
    (lines t)[front.length]? = some piece := by
  unfold lines
  dsimp only
  rw [h, List.dropLast_concat, List.getElem?_append_right (by simp)]
  simp [hne]

end

private theorem dropReturn_append (a : Text) {b : Text} (hb : b ≠ []) : dropReturn (a ++ b) = a ++ dropReturn b := by
  unfold dropReturn
  rw [List.getLast?_append_of_ne_nil a hb]
  split
  · rw [List.dropLast_append_of_ne_nil hb]
  · rfl

theorem dropReturn_isPrefix (t : Text) : dropReturn t <+: t := by
  unfold dropReturn
  split
  · exact List.dropLast_prefix t
  · exact List.prefix_rfl

private theorem drop_dropReturn_append (a b : Text) : (dropReturn (a ++ b)).drop a.length = dropReturn b := by
  by_cases hb : b = []
  · subst hb
    rw [List.append_nil]
    exact List.drop_eq_nil_of_le (dropReturn_isPrefix a).length_le
  · rw [dropReturn_append a hb, List.drop_left]

end Text

private theorem Position.behind_eq (before : Text) :
    behind before = ⟨1 + before.count '\n', 1 + (Text.lastLine before).length⟩ := by
  simp [behind, Text.lastLine]

namespace Text

theorem lines_behind (before : Text) {rest : Text} (hne : rest ≠ []) :
    ∃ line, (lines (before ++ rest))[(Position.behind before).line - 1]? = some line ∧
      (lines rest).head? = some (line.drop ((Position.behind before).column - 1)) := by
  obtain ⟨front, hfront, hsplit⟩ := exists_splitLines_append before
  have hwhole := hsplit rest
  rw [Position.behind_eq, Nat.add_sub_cancel_left, Nat.add_sub_cancel_left, ← hfront, List.head?_eq_getElem?]
  cases hpieces : splitLines rest with
  | nil => exact absurd hpieces (splitLines_ne_nil rest)
  | cons piece pieces =>
    rw [hpieces, List.modifyHead_cons] at hwhole
    cases pieces with
    | nil =>
      obtain rfl := eq_of_splitLines_eq_singleton hpieces
      have hline : (lines rest)[0]? = some rest := @lines_of_last rest _ [] hpieces hne
      exact ⟨_, lines_of_last hwhole (by simp [hne]), by simpa using hline⟩
    | cons next pieces =>
      have hline : (lines rest)[0]? = some (dropReturn piece) := @lines_of_piece rest _ _ [] _ hpieces
      refine ⟨_, lines_of_piece hwhole, ?_⟩
      rw [drop_dropReturn_append]
      exact hline

private theorem exists_append_of_getElem? {α : Type} {l : List α} {i : Nat} {a : α} (h : l[i]? = some a) :
    ∃ front back, l = front ++ a :: back ∧ front.length = i := by
  obtain ⟨hi, rfl⟩ := List.getElem?_eq_some_iff.1 h
  exact ⟨l.take i, l.drop (i + 1), by simp, List.length_take_of_le (Nat.le_of_lt hi)⟩

/-- A line of a part of a text, but for its first one, is a line of the text. The last line of the part
goes on with what follows the part. -/
theorem lines_of_part (before part : Text) {rest piece : Text} {i : Nat} (hi : 1 ≤ i)
    (hrest : ∃ c ∈ rest.head?, c ≠ '\n') (hpiece : (splitLines part)[i]? = some piece) :
    ∃ line, (lines (before ++ (part ++ rest)))[before.count '\n' + i]? = some line ∧
      (i + 1 < (splitLines part).length → line = dropReturn piece) ∧ dropReturn piece <+: line := by
  obtain ⟨outer, houter, hsplit⟩ := exists_splitLines_append before
  obtain ⟨inner, -, hpart⟩ := exists_splitLines_append part
  have hwhole := hsplit (part ++ rest)
  have halone := hpart []
  rw [List.append_nil] at halone
  rw [hpart rest] at hwhole
  obtain ⟨c, hc, hfeed⟩ := hrest
  obtain ⟨more, rfl⟩ := List.head?_eq_some_iff.1 hc
  obtain ⟨next, others, hnext⟩ : ∃ next others, splitLines (c :: more) = (c :: next) :: others := by
    obtain ⟨next, others, hmore⟩ := List.exists_cons_of_ne_nil (splitLines_ne_nil more)
    exact ⟨next, others, by rw [splitLines, if_neg hfeed, hmore, List.modifyHead_cons]⟩
  rw [hnext, List.modifyHead_cons] at hwhole
  obtain ⟨front, back, hfound, hfront⟩ := exists_append_of_getElem? hpiece
  obtain ⟨first, front, rfl⟩ := List.exists_cons_of_ne_nil (List.length_pos_iff.1 (hfront ▸ hi))
  have hlength : (outer ++ (lastLine before ++ first) :: front).length = before.count '\n' + i := by
    simpa [houter] using hfront
  have hlast : splitLines part = inner ++ [lastLine part] := by simpa [splitLines] using halone
  rw [← hlength]
  obtain rfl | ⟨back, last, rfl⟩ := List.eq_nil_or_concat' back
  · obtain ⟨rfl, hpiece⟩ := List.append_inj' (hlast.symm.trans hfound) rfl
    obtain rfl : lastLine part = piece := by simpa using hpiece
    rw [List.cons_append, List.modifyHead_cons] at hwhole
    have hnone : ¬ i + 1 < (splitLines part).length := by
      rw [hfound, ← hfront]
      simp
    cases others with
    | nil =>
      refine ⟨_, lines_of_last (by simpa using hwhole) (by simp), fun h => absurd h hnone, ?_⟩
      exact (dropReturn_isPrefix _).trans (List.prefix_append _ _)
    | cons other others =>
      refine ⟨_, lines_of_piece (by simpa using hwhole), fun h => absurd h hnone, ?_⟩
      rw [dropReturn_append _ (by simp)]
      exact (dropReturn_isPrefix _).trans (List.prefix_append _ _)
  · have hinner : inner = first :: front ++ piece :: back := by
      have h := hlast.symm.trans hfound
      rw [← List.cons_append, ← List.append_assoc] at h
      exact (List.append_inj' h rfl).1
    subst hinner
    rw [List.append_assoc, List.cons_append, List.modifyHead_cons] at hwhole
    obtain ⟨other, others', hother⟩ := List.exists_cons_of_ne_nil
      (show back ++ (lastLine part ++ c :: next) :: others ≠ [] by simp)
    rw [List.cons_append, hother] at hwhole
    exact ⟨_, lines_of_piece (by simpa using hwhole), fun _ => rfl, List.prefix_rfl⟩

end Text
end SqfLayout
