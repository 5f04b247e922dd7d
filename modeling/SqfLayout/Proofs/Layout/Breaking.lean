import SqfLayout.Proofs.Layout.Below
import SqfLayout.Proofs.Layout.Entries
import SqfLayout.Proofs.Token.Breaking

/-! Breaking a line in the array that is the value of a parameter. The words of the file stay, so the
statement is read as before up to the end of the entry. Whether the check goes on from there depends on
the levels that the break has left open. -/
namespace SqfLayout

def Parameter.worded (p : Parameter) : Parameter := { p with value? := p.value?.map Expression.worded }

def Header.worded (h : Header) : Header := { h with parameters := h.parameters.map Parameter.worded }

namespace Layout
open Expression (Derives Even Filler arrayMarks)
open Token (Reflows Redrawn RedrawnBehind LineAt)

/-- The entry that binds a parameter, cut behind a mark of its value that stands in no code block. -/
inductive BindsAround (c : Convention) (p : Parameter) : List Token → Token → List Token → Parameter → Prop
  | entry {l name sep gap mark sep' gap' l' r' r : Token} {e : Expression} {v w y z : List Token}
      (hl : l.kind = .leftBracket) (hname : name.kind = .string) (hsep : sep.kind = .comma)
      (hgap : gap.kind = .space) (hmark : mark.kind ∈ arrayMarks) (heven : Even v)
      (hx : Derives (.expression e) (v ++ mark :: w)) (hsep' : sep'.kind = .comma)
      (hgap' : gap'.kind = .space) (hl' : l'.kind = .leftBracket) (hy : ChecksTypes c p.types y)
      (hr' : r'.kind = .rightBracket) (hz : ChecksSizeOf c p.types z) (hr : r.kind = .rightBracket) :
      BindsAround c p (l :: name :: sep :: gap :: v) mark (w ++ sep' :: gap' :: l' :: y ++ r' :: z ++ [r])
        { p with name? := some name.value, value? := some e }

section
variable {c : Convention} {p bound : Parameter} {x x' y z : List Token} {mark : Token} {sen : Sentinel}
  {type : Text} {types : List Text}

private theorem BindsAround.mem_arrayMarks (h : BindsAround c p x mark y bound) : mark.kind ∈ arrayMarks := by
  cases h
  assumption

private theorem BindsAround.binds (h : BindsAround c p x mark y bound) : Binds c p (x ++ mark :: y) bound := by
  cases h with
  | entry hl hname hsep hgap _ _ hx hsep' hgap' hl' hy hr' hz hr =>
    simpa using Binds.entry hl hname hsep hgap hx hsep' hgap' hl' hy hr' hz hr

/-- Behind the mark stands the start of an item or the end of the array, and any filler may stand
between. -/
private theorem BindsAround.refill (h : BindsAround c p x mark y bound) :
    ∃ filler t behind r, y = filler ++ t :: (behind ++ [r]) ∧ Filler filler ∧ Expression.Resumes t ∧
      r.kind = .rightBracket ∧ ∀ filler', Filler filler' → Binds c p (x ++ mark :: (filler' ++ t :: (behind ++ [r]))) bound := by
  cases h with
  | @entry l name sep gap mark sep' gap' l' r' r e v w y z hl hname hsep hgap hmark heven hx hsep' hgap' hl' hy hr'
      hz hr =>
    obtain ⟨filler, t, behind, rfl, hfiller, ht, hagain⟩ := hx.refills _ _ _ rfl hmark heven
    refine ⟨filler, t, behind ++ sep' :: gap' :: l' :: y ++ r' :: z, r, by simp, hfiller, ht, hr,
      fun filler' hfiller' => ?_⟩
    simpa using Binds.entry hl hname hsep hgap (hagain filler' hfiller') hsep' hgap' hl' hy hr' hz hr

private theorem Spells.reflows (hx : Spells sen x) (h : Reflows x x') : Spells sen x' := by
  cases hx with
  | emptyArray hl hr =>
    obtain ⟨l', _, rfl, hl', -, h⟩ := h.exists_cons (by rw [hl]; rfl)
    obtain ⟨r', _, rfl, hr', -, h⟩ := h.exists_cons (by rw [hr]; rfl)
    cases h
    exact .emptyArray (hl'.trans hl) (hr'.trans hr)
  | emptyCode hl hr =>
    obtain ⟨l', _, rfl, hl', -, h⟩ := h.exists_cons (by rw [hl]; rfl)
    obtain ⟨r', _, rfl, hr', -, h⟩ := h.exists_cons (by rw [hr]; rfl)
    cases h
    exact .emptyCode (hl'.trans hl) (hr'.trans hr)
  | command ht =>
    obtain ⟨t', _, rfl, ht', hvalue, h⟩ := h.exists_cons (by rw [ht]; rfl)
    cases h
    exact hvalue ▸ .command (ht'.trans ht)
  | number ht =>
    obtain ⟨t', _, rfl, ht', hvalue, h⟩ := h.exists_cons (by rw [ht]; rfl)
    cases h
    exact hvalue ▸ .number (ht'.trans ht)
  | string ht =>
    obtain ⟨t', _, rfl, ht', hvalue, h⟩ := h.exists_cons (by rw [ht]; rfl)
    cases h
    exact hvalue ▸ .string (ht'.trans ht)

private theorem ChecksType.reflows (hx : ChecksType c type x) (h : Reflows x x') : ChecksType c type x' := by
  unfold ChecksType at hx ⊢
  cases hsen : c.sentinel? type with
  | none =>
    rw [hsen] at hx
    cases hx
    cases h
    rfl
  | some sen =>
    rw [hsen] at hx
    exact Spells.reflows hx h

private theorem ChecksTypes.reflows (hx : ChecksTypes c types x) (h : Reflows x x') : ChecksTypes c types x' := by
  induction hx generalizing x' with
  | nil =>
    cases h
    exact .nil
  | single hx => exact .single (hx.reflows h)
  | cons hx hsep hgap htypes _ ih =>
    obtain ⟨y', _, rfl, hy', h⟩ := h.exists_append
    obtain ⟨sep', _, rfl, hsep', -, h⟩ := h.exists_cons (by rw [hsep]; rfl)
    obtain ⟨gap', _, rfl, hgap', -, h⟩ := h.exists_cons (by rw [hgap]; rfl)
    exact .cons (hx.reflows hy') (hsep'.trans hsep) (hgap'.trans hgap) htypes (ih h)

theorem ChecksSizeOf.reflows (hx : ChecksSizeOf c types x) (h : Reflows x x') : ChecksSizeOf c types x' := by
  obtain ⟨hneeds, hx⟩ | ⟨hneeds, rfl⟩ := hx
  · refine .inl ⟨hneeds, ?_⟩
    cases hx with
    | number hsep hgap ht =>
      obtain ⟨sep', _, rfl, hsep', -, h⟩ := h.exists_cons (by rw [hsep]; rfl)
      obtain ⟨gap', _, rfl, hgap', -, h⟩ := h.exists_cons (by rw [hgap]; rfl)
      obtain ⟨t', _, rfl, ht', -, h⟩ := h.exists_cons (by rw [ht]; rfl)
      cases h
      exact .number (hsep'.trans hsep) (hgap'.trans hgap) (ht'.trans ht)
    | array hsep hgap hx =>
      obtain ⟨sep', _, rfl, hsep', -, h⟩ := h.exists_cons (by rw [hsep]; rfl)
      obtain ⟨gap', _, rfl, hgap', -, h⟩ := h.exists_cons (by rw [hgap]; rfl)
      obtain ⟨items', hitems, -⟩ := hx.reflows h
      exact .array (hsep'.trans hsep) (hgap'.trans hgap) hitems
  · cases h
    exact .inr ⟨hneeds, rfl⟩

private theorem Binds.reflows (hx : Binds c p x bound) (h : Reflows x x') :
    ∃ bound', Binds c p x' bound' ∧ bound'.worded = bound.worded := by
  cases hx with
  | entry hl hname hsep hgap hx hsep' hgap' hl' hy hr' hz hr =>
    obtain ⟨w₁, r₁, rfl, h₁, hr₁⟩ := h.exists_concat (by rw [hr]; rfl)
    obtain ⟨w₂, close, rfl, h₂, hclose⟩ := h₁.exists_append
    obtain ⟨r₂, z', rfl, hr₂, -, hz'⟩ := hclose.exists_cons (by rw [hr']; rfl)
    obtain ⟨w₃, checks, rfl, h₃, hchecks⟩ := h₂.exists_append
    obtain ⟨sep₁, v₁, rfl, hsep₁, -, hv₁⟩ := hchecks.exists_cons (by rw [hsep']; rfl)
    obtain ⟨gap₁, v₂, rfl, hgap₁, -, hv₂⟩ := hv₁.exists_cons (by rw [hgap']; rfl)
    obtain ⟨l₁, y', rfl, hl₁, -, hy'⟩ := hv₂.exists_cons (by rw [hl']; rfl)
    obtain ⟨l₂, u₁, rfl, hl₂, -, hu₁⟩ := h₃.exists_cons (by rw [hl]; rfl)
    obtain ⟨name', u₂, rfl, hname', hvalue, hu₂⟩ := hu₁.exists_cons (by rw [hname]; rfl)
    obtain ⟨sep₂, u₃, rfl, hsep₂, -, hu₃⟩ := hu₂.exists_cons (by rw [hsep]; rfl)
    obtain ⟨gap₂, x', rfl, hgap₂, -, hx'⟩ := hu₃.exists_cons (by rw [hgap]; rfl)
    obtain ⟨e', he', heq⟩ := hx.reflows hx'
    refine ⟨_, .entry (hl₂.trans hl) (hname'.trans hname) (hsep₂.trans hsep) (hgap₂.trans hgap) he'
      (hsep₁.trans hsep') (hgap₁.trans hgap') (hl₁.trans hl') (hy.reflows hy') (hr₂.trans hr') (hz.reflows hz')
      (hr₁.trans hr), ?_⟩
    simp [Parameter.worded, heq, hvalue]

private theorem Binds.exists_ends (hx : Binds c p x bound) :
    ∃ l init r, x = l :: init ++ [r] ∧ l.kind = .leftBracket ∧ r.kind = .rightBracket := by
  cases hx with
  | @entry l name sep gap sep' gap' l' r' r _ x y z hl _ _ _ _ _ _ _ _ _ _ hr =>
    exact ⟨l, name :: sep :: gap :: x ++ sep' :: gap' :: l' :: y ++ r' :: z, r, by simp, hl, hr⟩

end

section
variable {c : Convention} {o : Token.Outcome} {ps bounds bounds' : List Parameter} {more more' : List Token} {line : Token}

/-- What pays for a break: in front of more entries the first line behind it stays on its level, and at
the end of the statement it closes one. -/
def Pays (o : Token.Outcome) (ps : List Parameter) (line : Token) : Prop :=
  if ps = [] then o.closes line else o.stays line

theorem pays_kept (ps : List Parameter) (line : Token) : Pays .kept ps line := by
  unfold Pays
  split <;> trivial

private theorem Binds.exists_newline {p bound : Parameter} {x z : List Token} (hx : Binds c p x bound)
    (h : Redrawn o (line :: (x ++ more)) z) (hline : line.kind = .newline) : ∃ u group z', z = u :: group ++ z' ∧
      (∀ v ∈ u :: group, v.kind.isLayout = true) ∧ (u.kind = .newline ∧ group = [] ↔ o.stays line) ∧
      (o.settles line → Redrawn .kept (x ++ more) z') := by
  obtain ⟨l, init, r, rfl, hl, -⟩ := hx.exists_ends
  exact h.exists_newline hline (by rw [hl]; rfl) (by simp [hl])

private theorem Binds.redrawn {p bound : Parameter} {x z : List Token} (hx : Binds c p x bound)
    (h : Redrawn .kept (x ++ more) z) : ∃ x' bound' more', z = x' ++ more' ∧ Binds c p x' bound' ∧
      bound'.worded = bound.worded ∧ Redrawn .kept more more' := by
  obtain ⟨l, init, r, rfl, -, hr⟩ := hx.exists_ends
  rw [List.append_assoc, List.singleton_append] at h
  obtain ⟨x', r', more', rfl, hreflows, hmore⟩ :=
    h.exists_append (by rw [hr]; rfl) (by simp [hr]) fun _ _ => trivial
  obtain ⟨bound', hx', heq⟩ := hx.reflows hreflows
  exact ⟨_, bound', more', List.append_cons _ _ _, hx', heq, hmore.kept⟩

/-- The rest of the statement is read as before if its first line pays. -/
theorem Finishes.redrawn (h : Finishes c ps more bounds) (hmore : Redrawn o more more')
    (hpays : ∀ line ∈ more.find? (·.kind.isLayout), Pays o ps line ∧ (o.stays line → o.settles line)) :
    ∃ bounds', Finishes c ps more' bounds' ∧ bounds'.map Parameter.worded = bounds.map Parameter.worded := by
  induction h generalizing o more' with
  | @nil outdent rest houtdent =>
    obtain ⟨hcloses, -⟩ := hpays outdent (by simp [houtdent, Token.Kind.isLayout])
    rw [Pays, if_pos rfl] at hcloses
    obtain ⟨u, hu, hkind⟩ := (hmore.head?_iff houtdent).2 hcloses
    obtain ⟨rest', rfl⟩ := List.head?_eq_some_iff.1 hu
    exact ⟨[], .nil hkind, rfl⟩
  | @cons p bound ps bounds sep line x more hsep hline hx _ ih =>
    obtain ⟨hstays, hsettles⟩ := hpays line (by simp [hsep, hline, Token.Kind.isLayout])
    rw [Pays, if_neg (by simp)] at hstays
    obtain ⟨sep', behind, rfl, hsep', hbehind⟩ := hmore.exists_cons (by rw [hsep]; rfl) (by simp [hsep])
    obtain ⟨u, group, z, rfl, -, hiff, hz⟩ := hx.exists_newline hbehind hline
    obtain ⟨hu, rfl⟩ := hiff.2 hstays
    obtain ⟨x', bound', more', rfl, hx', heq, hmore'⟩ := hx.redrawn (hz (hsettles hstays))
    obtain ⟨bounds', hbounds', heqs⟩ := ih hmore' fun line _ => ⟨pays_kept ps line, fun _ => trivial⟩
    have hread : Finishes c (p :: ps) (sep' :: u :: (x' ++ more')) (bound' :: bounds') :=
      .cons (hsep'.trans hsep) hu hx' hbounds'
    exact ⟨_, hread, by simp [heq, heqs]⟩

private theorem Finishes.pays (h : Finishes c ps more bounds) (h' : Finishes c ps more' bounds')
    (hmore : Redrawn o more more') (hfind : more.find? (·.kind.isLayout) = some line) : Pays o ps line := by
  cases h with
  | @nil outdent rest houtdent =>
    obtain rfl : outdent = line := by simpa [houtdent, Token.Kind.isLayout] using hfind
    rw [Pays, if_pos rfl, ← hmore.head?_iff houtdent]
    cases h' with
    | nil houtdent' => exact ⟨_, rfl, houtdent'⟩
  | @cons p bound ps bounds sep line₁ x more hsep hline hx _ =>
    obtain rfl : line₁ = line := by simpa [hsep, hline, Token.Kind.isLayout] using hfind
    rw [Pays, if_neg (by simp)]
    obtain ⟨sep', behind, rfl, hsep', hbehind⟩ := hmore.exists_cons (by rw [hsep]; rfl) (by simp [hsep])
    obtain ⟨u, group, z, rfl, hgroup, hiff, hz⟩ := hx.exists_newline hbehind hline
    rw [← hiff]
    generalize hw : sep' :: (u :: group ++ z) = w at h'
    cases h' with
    | @cons _ _ _ _ _ line₂ x' more' _ hline' hx' _ =>
      obtain ⟨-, hlines⟩ := List.cons.inj hw
      obtain ⟨rfl, hgroups⟩ := List.cons.inj hlines
      refine ⟨hline', ?_⟩
      cases group with
      | nil => rfl
      | cons v group =>
        obtain ⟨l, init, r, rfl, hl, -⟩ := hx'.exists_ends
        obtain ⟨rfl, -⟩ := List.cons.inj hgroups
        have := hgroup v (by simp)
        simp [hl, Token.Kind.isLayout] at this

end

section
variable {source : Text} {base n : Nat} {c : Convention} {p bound : Parameter} {x y more behind' : List Token}
  {mark : Token}

private theorem exists_binds_of_redrawn {o : Token.Outcome} {t r : Token} {z behind filler rest : List Token}
    (hagain : ∀ filler, Filler filler → Binds c p (x ++ mark :: (filler ++ t :: (behind ++ [r]))) bound)
    (hr : r.kind = .rightBracket) (hz : Filler z) (hfiller : ∀ t ∈ filler, t.kind.isLayout = true)
    (h : Redrawn o (z ++ t :: (behind ++ r :: more)) rest)
    (hline : ∀ line, (z ++ t :: behind).find? (·.kind.isLayout) = some line → o.settles line) :
    ∃ x' bound' more', x ++ mark :: (filler ++ rest) = x' ++ more' ∧ Binds c p x' bound' ∧
      bound'.worded = bound.worded ∧ RedrawnBehind o (z ++ t :: behind) more more' := by
  rw [← List.cons_append, ← List.append_assoc] at h
  obtain ⟨u, r', more', rfl, hreflows, hmore⟩ := h.exists_append (by rw [hr]; rfl) (by simp [hr]) hline
  have hbinds := hagain (filler ++ z) (List.forall_mem_append.2 ⟨Expression.filler_of_layout hfiller, hz⟩)
  have hdrawn : Reflows (x ++ mark :: (filler ++ z ++ t :: (behind ++ [r]))) (x ++ mark :: filler ++ (u ++ [r'])) := by
    simpa using hreflows.append_left (x ++ mark :: filler)
  obtain ⟨bound', hbound', heq⟩ := hbinds.reflows hdrawn
  exact ⟨_, bound', more', by simp, hbound', heq, hmore⟩

private theorem BindsAround.rebroken (hx : BindsAround c p x mark y bound)
    (h : Token.Rebroken source base n (y ++ more) behind')
    (hsettles : ∀ line, y.find? (·.kind.isLayout) = some line → (Token.brokenAt source base n).settles line) :
    ∃ x' bound' more', x ++ mark :: behind' = x' ++ more' ∧ Binds c p x' bound' ∧ bound'.worded = bound.worded ∧
      RedrawnBehind (Token.brokenAt source base n) y more more' := by
  obtain ⟨filler, t, behind, r, rfl, hfiller, ht, hr, hagain⟩ := hx.refill
  obtain ⟨filler₁, rest, filler', rest', hsplit, rfl, hfiller₁, hfiller', hredrawn⟩ := h
  have hlast : r.kind.isLayout = false := by rw [hr]; rfl
  -- The filler that the break takes the place of stands in front of `t`.
  obtain ⟨z, rfl, rfl⟩ : ∃ z, filler = filler₁ ++ z ∧ rest = z ++ t :: (behind ++ r :: more) := by
    have hsame : filler₁ ++ rest = filler ++ t :: (behind ++ r :: more) := by rw [← hsplit]; simp
    obtain ⟨z, rfl, -⟩ | hz := Token.exists_split hsame
    · have := hfiller₁ t (by simp)
      simp [ht.not_filler] at this
    · exact hz
  have hz : Filler z := fun u hu => hfiller u (List.mem_append_right filler₁ hu)
  obtain ⟨⟨u, hu, hlayout⟩, hkept⟩ | ⟨hspaces, hbroken⟩ := hredrawn
  · obtain ⟨x', bound', more', hsame, hx', heq, hmore⟩ :=
      exists_binds_of_redrawn hagain hr hz hfiller' hkept fun _ _ => trivial
    exact ⟨x', bound', more', hsame, hx', heq, .inl ⟨⟨u, by simp [hu], hlayout⟩, hmore.kept⟩⟩
  · have hnone : ∀ u ∈ filler₁, u.kind.isLayout = false := fun u hu => by rw [hspaces u hu]; rfl
    have hfind : filler₁.find? (·.kind.isLayout) = none := by simpa using hnone
    have hy : filler₁ ++ z ++ t :: (behind ++ [r]) = filler₁ ++ (z ++ t :: behind ++ [r]) := by simp
    rw [hy] at hsettles ⊢
    obtain ⟨x', bound', more', hsame, hx', heq, hmore⟩ :=
      exists_binds_of_redrawn hagain hr hz hfiller' hbroken fun line hline => hsettles line (by
        rw [List.find?_append, hfind, Option.none_or, List.find?_append, hline, Option.some_or])
    refine ⟨x', bound', more', hsame, hx', heq, hmore.imp (.imp_left ?_) (.imp_left ?_)⟩
    · rintro ⟨u, hu, hlayout⟩
      exact ⟨u, List.mem_append_right _ (List.mem_append_left _ hu), hlayout⟩
    · exact fun hwords =>
        List.forall_mem_append.2 ⟨hnone, List.forall_mem_append.2 ⟨hwords, List.forall_mem_singleton.2 hlast⟩⟩

end

section
variable {c : Convention} {above gap below run a : Text} {k : Char} {declared h : Header}
  {done later : List Parameter} {p bound : Parameter} {front x y more : List Token} {mark statement line : Token}
  {base n : Nat}

/-- Behind a mark within a line stands no hash, since a hash is an operator there. -/
private theorem BindsAround.head?_ne_hash {source text : Text} (hx : BindsAround c p x mark y bound)
    (hstream : Token.stream source = .ok (front ++ mark :: (y ++ more))) (hplace : mark.position = .behind a)
    (hsource : Text.dropMark source = a ++ k :: (gap ++ text)) (hgap : ∀ d ∈ gap, Text.isBlank d = true) :
    text.head? ≠ some '#' := by
  intro hhash
  obtain ⟨text, rfl⟩ := List.head?_eq_some_iff.1 hhash
  obtain ⟨filler, t, behind, r, rfl, hfiller, ht, hr, -⟩ := hx.refill
  obtain ⟨spaces, u, others, hsplit, hspaces, hkind, hvalue⟩ :=
    Token.exists_operator_of_hash hstream hx.mem_arrayMarks hplace hsource hgap
  have hsame : spaces ++ u :: others = filler ++ t :: (behind ++ r :: more) := by rw [← hsplit]; simp
  obtain ⟨z, rfl, -⟩ | ⟨z, rfl, hz⟩ := Token.exists_split hsame
  · have := ht.not_filler
    simp [hspaces t (by simp)] at this
  cases z with
  | cons v z =>
    obtain ⟨rfl, -⟩ := List.cons.inj hz
    have := hfiller u (by simp)
    simp [hkind, Token.Kind.isLayout] at this
  | nil =>
    obtain ⟨rfl, -⟩ := List.cons.inj hz
    obtain hstarts | hsign := ht
    · simp [hkind, Expression.starts] at hstarts
    · obtain ⟨-, heq | heq | heq⟩ := Expression.isSign_iff.1 hsign <;> simp [heq] at hvalue

theorem pays_brokenAt_iff {source : Text} {width : Nat} (hline : LineAt source line n) :
    Pays (Token.brokenAt source base width) later line ↔ if later = [] then n < width else n = width := by
  unfold Pays
  split
  · refine ⟨?_, fun hlt => ⟨n, hlt, hline⟩⟩
    rintro ⟨m, hlt, hm⟩
    exact hline.unique hm ▸ hlt
  · exact ⟨hline.unique, fun heq => heq ▸ hline⟩

/-- Behind the entry whose line was broken, the rest of the statement is read if and only if the first line
behind the break pays. A line that ends in the entry pays by itself. -/
private theorem Finishes.rebroken {source : Text} {width : Nat} {bounds : List Parameter} {more' : List Token}
    (h : Finishes c later more bounds)
    (hmore : RedrawnBehind (Token.brokenAt source base width) y more more')
    (hfind : (y ++ more).find? (·.kind.isLayout) = some line) (hline : LineAt source line n) (hdeep : base < width) :
    (∀ bounds', Finishes c later more' bounds' → (∃ t ∈ y, t.kind.isLayout = true) ∨
      if later = [] then n < width else n = width) ∧
    (((∃ t ∈ y, t.kind.isLayout = true) ∨ if later = [] then n < width else n = width) →
      ∃ bounds', Finishes c later more' bounds' ∧ bounds'.map Parameter.worded = bounds.map Parameter.worded) := by
  obtain ⟨hlayout, hkept⟩ | ⟨hnone, hbroken⟩ := hmore
  · refine ⟨fun _ _ => .inl hlayout, fun _ => ?_⟩
    exact h.redrawn hkept fun line _ => ⟨pays_kept later line, fun _ => trivial⟩
  · have hnot : ¬ ∃ t ∈ y, t.kind.isLayout = true := by
      rintro ⟨t, ht, hlayout⟩
      simp [hnone t ht] at hlayout
    have hfirst : more.find? (·.kind.isLayout) = some line := by
      rw [List.find?_append, List.find?_eq_none.2 (by simpa using hnone), Option.none_or] at hfind
      exact hfind
    have hiff : Pays (Token.brokenAt source base width) later line ↔ _ := pays_brokenAt_iff hline
    rw [or_iff_right hnot, ← hiff]
    refine ⟨fun _ h' => h.pays h' hbroken hfirst, fun hpays => h.redrawn hbroken fun line' hline' => ?_⟩
    obtain rfl : line = line' := Option.some.inj (hfirst.symm.trans hline')
    exact ⟨hpays, fun hstays => ⟨_, Nat.le_of_lt hdeep, hstays⟩⟩

/-- A line is broken behind a mark of the array that is the value of `p`, deeper than the line on which
the statement starts. The break is accepted if a line ends behind it in the entry. If none does, the line
behind the entry has to close the level that the break opens when the statement ends there, and it must be
as deep as the break when more parameters follow. -/
theorem answer_break (hstream : Token.stream (above ++ (gap ++ below)) = .ok (front ++ (x ++ mark :: (y ++ more))))
    (hanswer : answer c (above ++ (gap ++ below)) = .ok h) (hfront : Entered c declared done p later front)
    (hx : BindsAround c p x mark y bound) (habove : Text.dropMark above = a ++ [k])
    (hplace : mark.position = .behind a) (hgap : ∀ d ∈ gap, Text.isBlank d = true)
    (hbelow : ∀ d ∈ below.head?, Text.isBlank d = false) (hrun : IsBreaks run)
    (hstatement : statement ∈ front) (hnewline : statement.kind = .newline)
    (hbase : LineAt (above ++ (gap ++ below)) statement base) (hdeep : base < Indentation.width run)
    (hfind : (y ++ more).find? (·.kind.isLayout) = some line) (hline : LineAt (above ++ (gap ++ below)) line n)
    (hwithin : (∃ t ∈ y, t.kind.isLayout = true) → base ≤ n) :
    (∃ tokens, Token.stream (above ++ (run ++ below)) = .ok tokens) ∧
    ((∃ h', answer c (above ++ (run ++ below)) = .ok h') ↔ (∃ t ∈ y, t.kind.isLayout = true) ∨
      if later = [] then n < Indentation.width run else n = Indentation.width run) ∧
    ∀ h', answer c (above ++ (run ++ below)) = .ok h' → h'.worded = h.worded := by
  have hne : above ≠ [] := by
    rintro rfl
    simp [Text.dropMark] at habove
  have hsource : ∀ text, Text.dropMark (above ++ text) = a ++ k :: text := by
    intro text
    rw [dropMark_append hne, habove]
    simp
  have hstream₁ : Token.stream (above ++ (gap ++ below)) = .ok (front ++ x ++ mark :: (y ++ more)) := by
    rw [hstream, List.append_assoc]
  have hhash := hx.head?_ne_hash hstream₁ hplace (hsource _) hgap
  obtain ⟨d, others, rfl, hd, hothers⟩ := hrun
  obtain ⟨behind', hstream', hrebroken⟩ := Token.exists_stream_of_break hstream₁ hx.mem_arrayMarks hplace (hsource _) hgap
    hbelow hhash (List.mem_append_left x hstatement) hnewline hbase hd hothers hdeep (hsource _)
  obtain ⟨tokens, hlexed, hconforms⟩ := answer_eq_ok_iff.1 hanswer
  obtain rfl : front ++ (x ++ mark :: (y ++ more)) = tokens := Except.ok.inj (hstream.symm.trans hlexed)
  obtain ⟨x₀, bound₀, more₀, bounds, hx₀, hfinishes, hsplit, rfl⟩ := hfront.conforms_iff.1 hconforms
  have hsame : x ++ mark :: y ++ more = x₀ ++ more₀ := by rw [← hsplit]; simp
  obtain ⟨rfl, rfl, rfl⟩ := binds_unique hx.binds hx₀ hsame
  obtain ⟨x', bound', more', hsplit', hx', heq, hmore⟩ := hx.rebroken hrebroken fun line' hline' => by
    rw [List.find?_append, hline', Option.some_or] at hfind
    obtain rfl := Option.some.inj hfind
    have hlayout := @List.find?_some _ _ line' y hline'
    exact ⟨n, hwithin ⟨line', List.mem_of_find?_eq_some hline', hlayout⟩, hline⟩
  rw [List.append_assoc, hsplit'] at hstream'
  have hanswer' : ∀ h', answer c (above ++ (d :: others ++ below)) = .ok h' ↔ ∃ bounds', Finishes c later more' bounds' ∧
      h' = { declared with parameters := done ++ bound' :: bounds' } := by
    intro h'
    rw [answer_eq_ok_iff]
    constructor
    · rintro ⟨tokens, hlexed', hconforms'⟩
      obtain rfl := Except.ok.inj (hstream'.symm.trans hlexed')
      obtain ⟨x₁, bound₁, more₁, bounds', hx₁, hfinishes', hsplit₁, rfl⟩ := hfront.conforms_iff.1 hconforms'
      obtain ⟨rfl, rfl, rfl⟩ := binds_unique hx' hx₁ hsplit₁
      exact ⟨bounds', hfinishes', rfl⟩
    · rintro ⟨bounds', hfinishes', rfl⟩
      exact ⟨_, hstream', hfront.conforms_iff.2 ⟨x', bound', more', bounds', hx', hfinishes', rfl, rfl⟩⟩
  obtain ⟨hpays, hreads⟩ := hfinishes.rebroken hmore hfind hline hdeep
  refine ⟨⟨_, hstream'⟩, ⟨?_, fun hpaid => ?_⟩, fun h' hh' => ?_⟩
  · rintro ⟨h', hh'⟩
    obtain ⟨bounds', hfinishes', -⟩ := (hanswer' h').1 hh'
    exact hpays bounds' hfinishes'
  · obtain ⟨bounds', hfinishes', -⟩ := hreads hpaid
    exact ⟨_, (hanswer' _).2 ⟨bounds', hfinishes', rfl⟩⟩
  · obtain ⟨bounds₁, hfinishes₁, -⟩ := (hanswer' h').1 hh'
    obtain ⟨bounds', hfinishes', heqs⟩ := hreads (hpays bounds₁ hfinishes₁)
    obtain rfl := Except.ok.inj (((hanswer' _).2 ⟨bounds', hfinishes', rfl⟩).symm.trans hh')
    simp [Header.worded, heq, heqs]

end

/-- A file up to a comma in the value of its parameter. -/
def pairAbove : Text :=
  "#include \"macros.hpp\"\n/*\n    Arma At War\n\n    Author: NetFusion\n\n    Description:\n    Waits\n\n" ++
    "    Parameter(s):\n    0: Place <Array> (Default: [1, 2])\n\n*/\n\nparams [\n    [\"_place\", [1,"

def pairBelow : Text := "2], [[]], 3]\n];\n"

def pairParameter : Parameter := ⟨"Place", ["Array"], "[1, 2]", none, none⟩

def pairValue : Expression := .array [.number "1", .number "2"]

def pairHeader (p : Parameter) : Header := ⟨["NetFusion"], ["Waits"], [p]⟩

def pairFront : List Token :=
  [⟨.preprocessorStart, "#", ⟨1, 1⟩⟩, ⟨.preprocessorInclude, "macros.hpp", ⟨1, 2⟩⟩, ⟨.newline, "\n", ⟨1, 22⟩⟩,
    ⟨.blockComment, (pairAbove.drop 24).take 127, ⟨2, 1⟩⟩, ⟨.blank, [], ⟨13, 3⟩⟩, ⟨.newline, "\n", ⟨13, 3⟩⟩] ++
  [⟨.command, "params", ⟨15, 1⟩⟩, ⟨.space, " ", ⟨15, 7⟩⟩, ⟨.leftBracket, "[", ⟨15, 8⟩⟩, ⟨.indent, [], ⟨15, 9⟩⟩]

def pairName : List Token :=
  [⟨.leftBracket, "[", ⟨16, 5⟩⟩, ⟨.string, "_place", ⟨16, 6⟩⟩, ⟨.comma, ",", ⟨16, 14⟩⟩, ⟨.space, " ", ⟨16, 15⟩⟩]

def pairFirst : List Token := [⟨.leftBracket, "[", ⟨16, 16⟩⟩, ⟨.number, "1", ⟨16, 17⟩⟩]

def pairComma : Token := ⟨.comma, ",", ⟨16, 18⟩⟩

def pairSecond : List Token := [⟨.space, " ", ⟨16, 19⟩⟩, ⟨.number, "2", ⟨16, 20⟩⟩, ⟨.rightBracket, "]", ⟨16, 21⟩⟩]

def pairChecks : List Token :=
  [⟨.comma, ",", ⟨16, 22⟩⟩, ⟨.space, " ", ⟨16, 23⟩⟩, ⟨.leftBracket, "[", ⟨16, 24⟩⟩, ⟨.leftBracket, "[", ⟨16, 25⟩⟩,
    ⟨.rightBracket, "]", ⟨16, 26⟩⟩, ⟨.rightBracket, "]", ⟨16, 27⟩⟩, ⟨.comma, ",", ⟨16, 28⟩⟩,
    ⟨.space, " ", ⟨16, 29⟩⟩, ⟨.number, "3", ⟨16, 30⟩⟩, ⟨.rightBracket, "]", ⟨16, 31⟩⟩]

def pairRest : List Token :=
  [⟨.outdent, [], ⟨16, 32⟩⟩, ⟨.rightBracket, "]", ⟨17, 1⟩⟩, ⟨.semicolon, ";", ⟨17, 2⟩⟩, ⟨.newline, "\n", ⟨17, 3⟩⟩,
    ⟨.eos, [], ⟨18, 1⟩⟩]

private theorem entered_pair : Entered .standard (pairHeader pairParameter) [] pairParameter [] pairFront := by
  refine .first (.opening rfl rfl rfl rfl rfl ?_ rfl rfl) rfl rfl rfl rfl rfl rfl
  cbv

private theorem derives_pair : Derives (.expression pairValue) (pairFirst ++ pairComma :: pairSecond) := by
  have hitems : Derives (.items [.number "1", .number "2"])
      ([⟨.number, "1", ⟨16, 17⟩⟩] ++ [] ++ pairComma :: [⟨.space, " ", ⟨16, 19⟩⟩] ++ [⟨.number, "2", ⟨16, 20⟩⟩]) :=
    .more (.single (@Derives.number ⟨.number, "1", ⟨16, 17⟩⟩ rfl)) (by simp [Filler]) rfl (by simp [Filler])
      (.last (.single (@Derives.number ⟨.number, "2", ⟨16, 20⟩⟩ rfl)) (by simp [Filler]))
  have harray : Derives (.array [.number "1", .number "2"])
      (⟨.leftBracket, "[", ⟨16, 16⟩⟩ :: [] ++ ([⟨.number, "1", ⟨16, 17⟩⟩] ++ [] ++ pairComma ::
        [⟨.space, " ", ⟨16, 19⟩⟩] ++ [⟨.number, "2", ⟨16, 20⟩⟩]) ++ [⟨.rightBracket, "]", ⟨16, 21⟩⟩]) :=
    .bracketed rfl (by simp [Filler]) hitems rfl
  exact .single (.array harray)

private theorem bindsAround_pair : BindsAround .standard pairParameter (pairName ++ pairFirst) pairComma
    (pairSecond ++ pairChecks) ⟨"Place", ["Array"], "[1, 2]", some "_place", some pairValue⟩ := by
  have heven : Even pairFirst := rfl
  have hsentinel : Convention.standard.sentinel? "Array" = some .emptyArray := by decide +kernel
  have htypes : ChecksTypes .standard pairParameter.types
      [⟨.leftBracket, "[", ⟨16, 25⟩⟩, ⟨.rightBracket, "]", ⟨16, 26⟩⟩] := by
    refine .single ?_
    unfold ChecksType
    rw [hsentinel]
    exact .emptyArray rfl rfl
  have hsize : ChecksSizeOf .standard pairParameter.types
      [⟨.comma, ",", ⟨16, 28⟩⟩, ⟨.space, " ", ⟨16, 29⟩⟩, ⟨.number, "3", ⟨16, 30⟩⟩] :=
    .inl ⟨⟨"Array", List.mem_singleton_self _, hsentinel⟩, .number rfl rfl rfl⟩
  exact .entry rfl rfl rfl rfl (by decide) heven derives_pair rfl rfl rfl htypes rfl hsize rfl

private theorem stream_pair : Token.stream (pairAbove ++ (" " ++ pairBelow)) =
    .ok (pairFront ++ (pairName ++ pairFirst ++ pairComma :: (pairSecond ++ pairChecks ++ pairRest))) :=
  @Token.stream_of_streamWithin 60 _ _ (by decide +kernel)

private theorem pair_places : Text.dropMark pairAbove = pairAbove.dropLast ++ [','] ∧
    pairComma.position = .behind pairAbove.dropLast ∧
    Text.dropMark (pairAbove ++ (" " ++ pairBelow)) = pairAbove.take 153 ++ (pairAbove.drop 153 ++ (" " ++ pairBelow)) ∧
    (⟨13, 3⟩ : Position) = .behind (pairAbove.take 153) ∧
    Indentation.width ((pairAbove.drop 153 ++ (" " ++ pairBelow)).takeWhile Lexeme.isRun) = 0 ∧
    Text.dropMark (pairAbove ++ (" " ++ pairBelow)) = (pairAbove ++ (" " ++ pairBelow.take 12)) ++ pairBelow.drop 12 ∧
    (⟨16, 32⟩ : Position) = .behind (pairAbove ++ (" " ++ pairBelow.take 12)) ∧
    Indentation.width ((pairBelow.drop 12).takeWhile Lexeme.isRun) = 0 := by
  decide +kernel

theorem answer_break_pair : ∃ h, answer .standard (pairAbove ++ ("\n        " ++ pairBelow)) = .ok h := by
  have hanswer : answer .standard (pairAbove ++ (" " ++ pairBelow)) = .ok (pairHeader _) :=
    answer_eq_ok_iff.2 ⟨_, stream_pair, entered_pair.conforms_iff.2
      ⟨_, _, pairRest, [], bindsAround_pair.binds, .nil rfl, by simp, rfl⟩⟩
  obtain ⟨habove, hplace, hsource, hstart, hwidth, hsource', hend, hwidth'⟩ := pair_places
  have hstatement : LineAt (pairAbove ++ (" " ++ pairBelow)) ⟨.newline, "\n", ⟨13, 3⟩⟩ 0 :=
    ⟨_, _, hsource, hstart, hwidth⟩
  have hline : LineAt (pairAbove ++ (" " ++ pairBelow)) ⟨.outdent, [], ⟨16, 32⟩⟩ 0 :=
    ⟨_, _, hsource', hend, hwidth'⟩
  have hgap : List.all (" " : Text) Text.isBlank = true := by decide +kernel
  have hhead : pairBelow.head? = some '2' := by decide +kernel
  have hbelow : ∀ d ∈ pairBelow.head?, Text.isBlank d = false := by
    rw [hhead]
    rintro _ ⟨⟩
    rfl
  have hrun : IsBreaks "\n        " :=
    ⟨'\n', "        ", by decide +kernel, rfl, List.all_eq_true.1 (by decide +kernel)⟩
  have hnone : ¬ ∃ t ∈ pairSecond ++ pairChecks, t.kind.isLayout = true := by decide +kernel
  exact ((answer_break stream_pair hanswer entered_pair bindsAround_pair habove hplace (List.all_eq_true.1 hgap)
    hbelow hrun (by simp [pairFront]) rfl hstatement (by decide +kernel) rfl hline
    fun hline => absurd hline hnone).2.1).2 (.inr (by decide +kernel))

/-- A file up to the bracket of the value of its first parameter. -/
def twoAbove : Text :=
  "#include \"macros.hpp\"\n/*\n    Arma At War\n\n    Author: NetFusion\n\n    Description:\n    Waits\n\n" ++
    "    Parameter(s):\n    0: First <Array> (Default: [1, 2])\n    1: Second <Array> (Default: [1, 2])\n\n" ++
    "*/\n\nparams [\n    [\"_first\", ["

def twoBelow : Text := "1, 2], [[]], 2],\n    [\"_second\", [1, 2], [[]], 2]\n];\n"

/-- What the check makes of it: both parameters are bound to the same array. -/
def twoHeader : Header :=
  ⟨["NetFusion"], ["Waits"], [⟨"First", ["Array"], "[1, 2]", some "_first", some pairValue⟩,
    ⟨"Second", ["Array"], "[1, 2]", some "_second", some pairValue⟩]⟩

set_option maxRecDepth 4000 in
/-- The line of the second entry closes the level that the break has opened. -/
theorem answer_break_two : answer .standard (twoAbove ++ twoBelow) = .ok twoHeader ∧
    answer .standard (twoAbove ++ ("\n        " ++ twoBelow)) =
      .error ⟨.mismatch .newline (Indentation.token ⟨18, 25⟩ .outdent) none, ⟨18, 25⟩⟩ := by
  have hstream : Token.stream (twoAbove ++ twoBelow) =
      .ok ((Token.streamWithin 60 (twoAbove ++ twoBelow)).getD []) :=
    @Token.stream_of_streamWithin 60 _ _ (by decide +kernel)
  have hstream' : Token.stream (twoAbove ++ ("\n        " ++ twoBelow)) =
      .ok ((Token.streamWithin 60 (twoAbove ++ ("\n        " ++ twoBelow))).getD []) :=
    @Token.stream_of_streamWithin 60 _ _ (by decide +kernel)
  have hread : validate .standard ((Token.streamWithin 60 (twoAbove ++ twoBelow)).getD []) = .ok twoHeader := by
    cbv
  have hread' : validate .standard ((Token.streamWithin 60 (twoAbove ++ ("\n        " ++ twoBelow))).getD []) =
    .error ⟨.mismatch .newline (Indentation.token ⟨18, 25⟩ .outdent) none, ⟨18, 25⟩⟩ := by cbv
  unfold answer
  rw [hstream, hstream']
  exact ⟨hread, hread'⟩

end Layout
end SqfLayout
