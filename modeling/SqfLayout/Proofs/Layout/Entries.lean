import SqfLayout.Proofs.Layout.Acceptance

/-! A conformant file as seen from one of its entries: what stands in front of the entry, and what
stands behind it. -/
namespace SqfLayout.Layout

/-- What stands in front of the entry of the parameter `p`. The parameters `done` were bound there, and
the parameters `later` are not yet. -/
inductive Entered (c : Convention) (h : Header) : List Parameter → Parameter → List Parameter → List Token → Prop
  | first {p : Parameter} {later : List Parameter} {command gap l indent : Token} {x : List Token}
      (hx : Declares c x h) (hparameters : h.parameters = p :: later) (hcommand : command.kind = .command)
      (hvalue : command.value = c.parametersCommand) (hgap : gap.kind = .space) (hl : l.kind = .leftBracket)
      (hindent : indent.kind = .indent) : Entered c h [] p later (x ++ [command, gap, l, indent])
  | next {done later : List Parameter} {p p' bound : Parameter} {sep line : Token} {front x : List Token}
      (hfront : Entered c h done p (p' :: later) front) (hx : Binds c p x bound) (hsep : sep.kind = .comma)
      (hline : line.kind = .newline) :
      Entered c h (done ++ [bound]) p' later (front ++ (x ++ [sep, line]))

/-- What stands behind an entry: the entries of the parameters that are left, and the token that closes
the statement. -/
inductive Finishes (c : Convention) : List Parameter → List Token → List Parameter → Prop
  | nil {outdent : Token} {rest : List Token} (houtdent : outdent.kind = .outdent) :
      Finishes c [] (outdent :: rest) []
  | cons {p bound : Parameter} {ps bounds : List Parameter} {sep line : Token} {x more : List Token}
      (hsep : sep.kind = .comma) (hline : line.kind = .newline) (hx : Binds c p x bound)
      (hmore : Finishes c ps more bounds) :
      Finishes c (p :: ps) (sep :: line :: (x ++ more)) (bound :: bounds)

section
variable {c : Convention} {p bound bound' : Parameter} {ps later done bounds : List Parameter}
  {x x' more more' s front : List Token} {h h' : Header}

/-- No two entries start at one place. -/
theorem binds_unique (hx : Binds c p x bound) (hx' : Binds c p x' bound') (h : x ++ more = x' ++ more') :
    x = x' ∧ more = more' ∧ bound = bound' := by
  have hread : entry c p (x ++ more) = .ok bound more := entry_ok_iff.2 ⟨x, hx, rfl⟩
  rw [h, entry_ok_iff.2 ⟨x', hx', rfl⟩] at hread
  obtain ⟨rfl, rfl⟩ := EStateM.Result.ok.inj hread
  exact ⟨List.append_left_inj more' |>.1 h, rfl, rfl⟩

theorem bindsAll_unique {y y' : List Token} {bounds' : List Parameter} (hy : BindsAll c (p :: ps) y bounds)
    (hy' : BindsAll c (p :: ps) y' bounds') (h : y ++ more = y' ++ more') :
    y = y' ∧ more = more' ∧ bounds = bounds' := by
  have hread : entries c [] (p :: ps) (y ++ more) = .ok bounds more := entries_ok_iff.2 ⟨y, hy, rfl⟩
  rw [h, entries_ok_iff.2 ⟨y', hy', rfl⟩] at hread
  obtain ⟨rfl, rfl⟩ := EStateM.Result.ok.inj hread
  exact ⟨List.append_left_inj more' |>.1 h, rfl, rfl⟩

theorem exists_bindsAll_iff : (∃ y outdent rest, BindsAll c (p :: ps) y bounds ∧ outdent.kind = .outdent ∧
      s = y ++ outdent :: rest) ↔
    ∃ x bound more bounds', Binds c p x bound ∧ Finishes c ps more bounds' ∧ s = x ++ more ∧
      bounds = bound :: bounds' := by
  induction ps generalizing p s bounds with
  | nil =>
    constructor
    · rintro ⟨y, outdent, rest, hy, houtdent, rfl⟩
      cases hy with
      | single hx => exact ⟨y, _, _, [], hx, .nil houtdent, rfl, rfl⟩
      | cons _ _ _ hy => nomatch hy
    · rintro ⟨x, bound, more, bounds', hx, hmore, rfl, rfl⟩
      cases hmore with
      | nil houtdent => exact ⟨x, _, _, .single hx, houtdent, rfl⟩
  | cons p' ps ih =>
    constructor
    · rintro ⟨_, outdent, rest, hy, houtdent, rfl⟩
      cases hy with
      | @cons _ bound _ bounds' sep line x y hx hsep hline hy =>
        obtain ⟨x', bound', more, bounds'', hx', hmore, hsplit, rfl⟩ := ih.1 ⟨y, outdent, rest, hy, houtdent, rfl⟩
        refine ⟨x, bound, _, _, hx, .cons hsep hline hx' hmore, ?_, rfl⟩
        rw [← hsplit]
        simp
    · rintro ⟨x, bound, more, bounds', hx, hmore, rfl, rfl⟩
      cases hmore with
      | cons hsep hline hx' hmore =>
        obtain ⟨y, outdent, rest, hy, houtdent, hsplit⟩ := ih.2 ⟨_, _, _, _, hx', hmore, rfl, rfl⟩
        refine ⟨_, outdent, rest, .cons hx hsep hline hy, houtdent, ?_⟩
        rw [hsplit]
        simp

theorem Declares.unique (hx : Declares c x h) (hx' : Declares c x' h') (hsplit : x ++ more = x' ++ more') :
    x = x' ∧ more = more' ∧ h = h' := by
  cases hx with
  | opening _ _ _ _ _ hread =>
    cases hx' with
    | opening _ _ _ _ _ hread' =>
      simp only [List.cons_append, List.nil_append, List.cons.injEq] at hsplit
      obtain ⟨rfl, rfl, rfl, rfl, rfl, rfl, rfl⟩ := hsplit
      exact ⟨rfl, rfl, Except.ok.inj (hread.symm.trans hread')⟩

theorem Entered.conforms_iff (hfront : Entered c h done p later front) : Conforms c (front ++ s) h' ↔
    ∃ x bound more bounds, Binds c p x bound ∧ Finishes c later more bounds ∧ s = x ++ more ∧
      h' = { h with parameters := done ++ bound :: bounds } := by
  induction hfront generalizing s with
  | @first p later command gap l indent x hx hparameters hcommand hvalue hgap hl hindent =>
    constructor
    · generalize hs : x ++ [command, gap, l, indent] ++ s = w
      intro hconforms
      cases hconforms with
      | plain hx' hnone hrest =>
        rw [List.append_assoc] at hs
        obtain ⟨rfl, rfl, rfl⟩ := hx.unique hx' hs
        exact absurd ⟨command, _, rfl, hcommand, hvalue⟩ hrest
      | @binding command' gap' l' indent' outdent x' y rest header bounds hx' _ _ _ _ _ hy houtdent =>
        have hs' : x ++ command :: gap :: l :: indent :: s =
            x' ++ command' :: gap' :: l' :: indent' :: (y ++ outdent :: rest) := by simpa using hs
        obtain ⟨rfl, htail, rfl⟩ := hx.unique hx' hs'
        simp only [List.cons.injEq] at htail
        obtain ⟨rfl, rfl, rfl, rfl, rfl⟩ := htail
        rw [hparameters] at hy
        obtain ⟨x'', bound, more, bounds', hx'', hmore, hsplit, rfl⟩ :=
          exists_bindsAll_iff.1 ⟨y, outdent, rest, hy, houtdent, rfl⟩
        exact ⟨x'', bound, more, bounds', hx'', hmore, hsplit, rfl⟩
    · rintro ⟨x', bound, more, bounds, hx', hmore, rfl, rfl⟩
      obtain ⟨y, outdent, rest, hy, houtdent, hsplit⟩ := exists_bindsAll_iff.2 ⟨x', bound, more, bounds, hx', hmore, rfl, rfl⟩
      rw [← hparameters] at hy
      have hconforms : Conforms c (x ++ command :: gap :: l :: indent :: y ++ outdent :: rest) _ :=
        .binding hx hcommand hvalue hgap hl hindent hy houtdent
      rw [hsplit]
      simpa using hconforms
  | @next done later p p' bound sep line front x _ hx hsep hline ih =>
    rw [List.append_assoc, List.append_assoc, ih]
    constructor
    · rintro ⟨x', bound', more, bounds, hx', hmore, hsplit, rfl⟩
      obtain ⟨rfl, rfl, rfl⟩ := binds_unique hx hx' hsplit
      generalize hs : [sep, line] ++ s = w at hmore
      cases hmore with
      | cons _ _ hx'' hmore =>
        simp only [List.cons_append, List.nil_append, List.cons.injEq] at hs
        obtain ⟨rfl, rfl, rfl⟩ := hs
        exact ⟨_, _, _, _, hx'', hmore, rfl, by simp⟩
    · rintro ⟨x', bound', more, bounds, hx', hmore, rfl, rfl⟩
      exact ⟨x, bound, _, _, hx, .cons hsep hline hx' hmore, rfl, by simp⟩

theorem BindsAll.exists_cons {x : List Token} (hx : BindsAll c ps x bounds) : ∃ p rest, ps = p :: rest := by
  cases hx with
  | single => exact ⟨_, _, rfl⟩
  | cons => exact ⟨_, _, rfl⟩

theorem BindsAll.bound_ne_nil {x : List Token} (hx : BindsAll c ps x bounds) : bounds ≠ [] := by
  cases hx <;> simp

/-- Every parameter of a conformant file has an entry, with all other entries in front of it and behind
it. -/
theorem Conforms.exists_entered {tokens : List Token} (hx : Conforms c tokens h) {n : Nat}
    (hn : n < h.parameters.length) : ∃ declared done p later front x bound more bounds,
      Entered c declared done p later front ∧ Binds c p x bound ∧ Finishes c later more bounds ∧
      tokens = front ++ (x ++ more) ∧ h.parameters = done ++ bound :: bounds ∧ done.length = n := by
  induction n with
  | zero =>
    cases hx with
    | plain _ hnone => simp [hnone] at hn
    | @binding command gap l indent outdent x y rest header bounds hx hcommand hvalue hgap hl hindent hy houtdent =>
      obtain ⟨p, later, hparameters⟩ := hy.exists_cons
      rw [hparameters] at hy
      obtain ⟨x', bound, more, bounds', hx', hmore, hsplit, rfl⟩ :=
        exists_bindsAll_iff.1 ⟨y, outdent, rest, hy, houtdent, rfl⟩
      refine ⟨header, [], p, later, _, x', bound, more, bounds',
        .first hx hparameters hcommand hvalue hgap hl hindent, hx', hmore, ?_, rfl, rfl⟩
      rw [← hsplit]
      simp
  | succ n ih =>
    obtain ⟨declared, done, p, later, front, x, bound, more, bounds, hfront, hx', hmore, rfl, hparameters, rfl⟩ :=
      ih (Nat.lt_of_succ_lt hn)
    cases hmore with
    | nil => simp [hparameters] at hn
    | @cons p' bound' later bounds sep line x' more hsep hline hx'' hmore =>
      exact ⟨declared, done ++ [bound], p', later, _, x', bound', more, bounds, hfront.next hx' hsep hline, hx'',
        hmore, by simp, by simp [hparameters], by simp⟩

end

end SqfLayout.Layout
