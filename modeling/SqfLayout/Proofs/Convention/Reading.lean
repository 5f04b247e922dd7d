import SqfLayout.Proofs.Convention.Written
import SqfLayout.Proofs.Sequence

/-! Readers of parts of a convention take back what is written. Each reader has one lemma, about any text that
is written for it and whatever follows that text. -/
namespace SqfLayout.Convention.Decoder
open Json (IsFrame IsGap IsString IsTail isWhite)

section
variable {α β σ : Type} {d : Decoder α} {f : α → Decoder β} {a : α} {e : DecodingFailure} {s rest gap t : Text}
  {c : Char}

private theorem peek_gap_cons (hgap : IsGap gap) (hc : isWhite c = false) (s : Text) :
    peek (gap ++ c :: s) = .ok (some c) (c :: s) := by
  rw [peek, Json.skipWhite_gap_cons hgap hc]
  rfl

theorem bind_peek (hgap : IsGap gap) (hc : isWhite c = false) (f : Option Char → Decoder β) (s : Text) :
    (peek >>= f) (gap ++ c :: s) = f (some c) (c :: s) :=
  bind_of_ok (peek_gap_cons hgap hc s)

private theorem bind_eat (f : Unit → Decoder β) (c : Char) (s : Text) : (eat >>= f) (c :: s) = f () s := rfl

/-- A reader takes back what is written for it: the text does not look like the end of a list, and reading stops
right behind it. -/
structure Reads (d : Decoder α) (t : Text) (a : α) : Prop where
  starts : ∃ c w, t = c :: w ∧ isWhite c = false ∧ c ≠ ']'
  reads : ∀ gap rest, IsGap gap → d (gap ++ (t ++ rest)) = .ok a rest

private theorem Reads.length_pos (h : Reads d t a) : 0 < t.length := by
  obtain ⟨c, w, rfl, -⟩ := h.starts
  exact Nat.succ_pos _

private theorem Reads.reads_here (h : Reads d t a) (rest : Text) : d (t ++ rest) = .ok a rest :=
  h.reads [] rest Json.isGap_nil

theorem eat_string {v : Text} (h : IsString t v) (rest : Text) :
    (do eat; lift Json.string : Decoder Text) (t ++ rest) = .ok v rest := by
  obtain ⟨hv⟩ := h
  have hstring := hv.string rest
  rw [List.append_assoc]
  show lift Json.string (_ ++ '"' :: rest) = _
  rw [lift, hstring]

theorem exists_quote {v : Text} (h : IsString t v) : ∃ w, t = '"' :: w := by
  obtain ⟨-⟩ := h
  exact ⟨_, rfl⟩

theorem reads_text {v : Text} (h : IsString t v) : Reads text t v := by
  have heat := eat_string h
  obtain ⟨w, rfl⟩ := exists_quote h
  refine ⟨⟨_, _, rfl, by decide, by decide⟩, fun gap rest hgap => ?_⟩
  rw [List.cons_append, text, bind_peek hgap (by decide)]
  exact heat rest

/-! Marks. -/

private theorem listEnd_gap (hgap : IsGap gap) (rest : Text) : listEnd (gap ++ ']' :: rest) = .ok () rest := by
  rw [listEnd, bind_peek hgap (by decide)]
  rfl

theorem objectEnd_gap (hgap : IsGap gap) (rest : Text) : objectEnd (gap ++ '\x7d' :: rest) = .ok () rest := by
  rw [objectEnd, bind_peek hgap (by decide)]
  rfl

theorem colon_gap (hgap : IsGap gap) (rest : Text) : colon (gap ++ ':' :: rest) = .ok () rest := by
  rw [colon, bind_peek hgap (by decide)]
  rfl

/-- What stands in front of an item: nothing, or a comma behind white space. -/
inductive Lead : Bool → Text → Prop
  | first : Lead true []
  | comma {gap : Text} (hgap : IsGap gap) : Lead false (gap ++ [','])

private theorem hasItem_end (hgap : IsGap gap) (first : Bool) (s : Text) :
    hasItem first (gap ++ ']' :: s) = .ok false (']' :: s) := by
  rw [hasItem, bind_peek hgap (by decide)]
  rfl

private theorem hasItem_lead {first : Bool} {lead : Text} (hlead : Lead first lead) (hgap : IsGap gap)
    (hc : isWhite c = false) (hend : c ≠ ']') (s : Text) :
    hasItem first (lead ++ (gap ++ c :: s)) = .ok true (c :: s) := by
  cases hlead with
  | first =>
    rw [List.nil_append, hasItem, bind_peek hgap hc]
    simp only [if_neg hend, if_true]
    rfl
  | comma hgap' =>
    rw [List.append_assoc, List.singleton_append, hasItem, bind_peek hgap' (by decide)]
    dsimp only
    rw [if_neg (by decide), if_neg (by decide), if_pos rfl, bind_eat, bind_peek hgap hc]
    dsimp only
    rw [if_neg hend]
    rfl

private theorem hasItem_reads {first : Bool} {lead : Text} (hlead : Lead first lead) (hgap : IsGap gap)
    (h : Reads d t a) (rest : Text) : hasItem first (lead ++ (gap ++ (t ++ rest))) = .ok true (t ++ rest) := by
  obtain ⟨c, w, rfl, hc, hend⟩ := h.starts
  exact hasItem_lead hlead hgap hc hend (w ++ rest)

theorem hasKey_end (hgap : IsGap gap) (first : Bool) (s : Text) :
    hasKey first (gap ++ '\x7d' :: s) = .ok false ('\x7d' :: s) := by
  rw [hasKey, bind_peek hgap (by decide)]
  rfl

theorem hasKey_lead {first : Bool} {lead : Text} (hlead : Lead first lead) (hgap : IsGap gap) (s : Text) :
    hasKey first (lead ++ (gap ++ '"' :: s)) = .ok true ('"' :: s) := by
  cases hlead with
  | first =>
    rw [List.nil_append, hasKey, bind_peek hgap (by decide)]
    rfl
  | comma hgap' =>
    rw [List.append_assoc, List.singleton_append, hasKey, bind_peek hgap' (by decide)]
    dsimp only
    rw [if_neg (by decide), if_neg (by decide), if_pos rfl, bind_eat, bind_peek hgap (by decide)]
    rfl

/-! Repeating a step. -/

theorem iterate_of_goesOn {step : σ → Decoder (σ × Bool)} {state state' : σ}
    (h : step state s = .ok (state', true) rest) (hrest : rest.length < s.length) :
    iterate step state s = iterate step state' rest := by
  rw [iterate, h]
  simp only [true_and, if_pos hrest]

theorem iterate_of_stops {step : σ → Decoder (σ × Bool)} {state state' : σ}
    (h : step state s = .ok (state', false) rest) : iterate step state s = .ok state' rest := by
  rw [iterate, h]
  rfl

/-! Lists. -/

private theorem inList_of_body {body : Decoder α} {gap' : Text} (hgap : IsGap gap) (hgap' : IsGap gap')
    (hbody : body s = .ok a (gap' ++ ']' :: rest)) (wanted : Wanted) :
    inList wanted body (gap ++ '[' :: s) = .ok a rest := by
  have hbracketed : bracketed (do eat; body) listEnd ('[' :: s) = .ok a rest := by
    have heat : (do eat; body : Decoder α) ('[' :: s) = .ok a (gap' ++ ']' :: rest) := hbody
    rw [bracketed, heat]
    simp only [listEnd_gap hgap']
  rw [inList, bind_peek hgap (by decide)]
  show located (bracketed (do eat; body) listEnd) ('[' :: s) = _
  rw [located, hbracketed]

def stepItem (item : Decoder α) (items : List α) : Decoder (List α × Bool) := do
  if ← hasItem items.isEmpty then return ((← item) :: items, true) else return (items, false)

private theorem stepItem_end (hgap : IsGap gap) (item : Decoder α) (items : List α) (s : Text) :
    stepItem item items (gap ++ ']' :: s) = .ok (items, false) (']' :: s) := by
  rw [stepItem, bind_of_ok (hasItem_end hgap _ s)]
  rfl

private theorem stepItem_lead {item : Decoder α} {items : List α} {lead : Text} (hlead : Lead items.isEmpty lead)
    (hgap : IsGap gap) (h : Reads item t a) (rest : Text) :
    stepItem item items (lead ++ (gap ++ (t ++ rest))) = .ok (a :: items, true) rest := by
  rw [stepItem, bind_of_ok (hasItem_reads hlead hgap h rest)]
  show (item >>= _) (t ++ rest) = _
  rw [bind_of_ok (h.reads_here rest)]
  rfl

private theorem iterate_items {P : Text → α → Prop} {item : Decoder α} (hitem : ∀ t a, P t a → Reads item t a)
    {as : List α} (h : IsTail P t as) (a : α) (items : List α) (rest : Text) :
    iterate (stepItem item) (a :: items) (t ++ ']' :: rest) = .ok (as.reverse ++ a :: items) (']' :: rest) := by
  induction h generalizing a items with
  | close hgap => exact iterate_of_stops (stepItem_end hgap item _ rest)
  | @more gap gap' u tail b as hgap hgap' hu _ ih =>
    have hb := hitem u b hu
    have hlead : Lead (a :: items).isEmpty (gap ++ [',']) := .comma hgap
    have hstep := stepItem_lead hlead hgap' hb (tail ++ ']' :: rest)
    have hpos := hb.length_pos
    have hwhole : gap ++ ',' :: (gap' ++ (u ++ tail)) ++ ']' :: rest =
        gap ++ [','] ++ (gap' ++ (u ++ (tail ++ ']' :: rest))) := by
      simp
    rw [hwhole, iterate_of_goesOn hstep, ih]
    · simp
    · simp only [List.length_append]
      omega

theorem reads_list {P : Text → α → Prop} {item : Decoder α} (hitem : ∀ t a, P t a → Reads item t a) {as : List α}
    (h : IsFrame .list P t as) : Reads (list item) t as := by
  refine ⟨?_, fun gap rest hgap => ?_⟩
  · cases h <;> exact ⟨_, _, rfl, by decide, by decide⟩
  have hall {s : Text} (h : iterate (stepItem item) [] s = .ok as.reverse (']' :: rest)) :
      list item (gap ++ '[' :: s) = .ok as rest := by
    have hbody : (List.reverse <$> iterate (stepItem item) []) s = .ok as ([] ++ ']' :: rest) := by
      show EStateM.map _ _ _ = _
      rw [EStateM.map, h]
      simp
    exact inList_of_body hgap Json.isGap_nil hbody .list
  cases h with
  | @empty gap' hgap' =>
    rw [List.cons_append, List.append_assoc]
    exact hall (iterate_of_stops (stepItem_end hgap' item [] rest))
  | @filled gap' u tail a as hgap' hu htail =>
    have ha := hitem u a hu
    have hlead : Lead ([] : List α).isEmpty [] := .first
    have hstep := stepItem_lead hlead hgap' ha (tail ++ ']' :: rest)
    have hpos := ha.length_pos
    have hwhole : gap ++ ('[' :: (gap' ++ (u ++ (tail ++ [']']))) ++ rest) =
        gap ++ '[' :: ([] ++ (gap' ++ (u ++ (tail ++ ']' :: rest)))) := by
      simp
    have hfirst : iterate (stepItem item) [] ([] ++ (gap' ++ (u ++ (tail ++ ']' :: rest)))) =
        .ok (a :: as).reverse (']' :: rest) := by
      rw [iterate_of_goesOn hstep, iterate_items hitem htail, List.reverse_cons]
      simp only [List.length_append, List.length_nil]
      omega
    exact (congrArg (list item) hwhole).trans (hall hfirst)

private theorem nextItem_lead {index : Nat} {wanted : Wanted} {lead : Text} (hlead : Lead (index = 0) lead)
    (hgap : IsGap gap)
    (h : Reads d t a) (rest : Text) : nextItem index wanted d (lead ++ (gap ++ (t ++ rest))) = .ok a rest := by
  rw [nextItem, bind_of_ok (hasItem_reads hlead hgap h rest)]
  exact h.reads_here rest

/-! Sentinels. -/

private theorem ofName?_variant (v : Variant) : Variant.ofName? v.name = some v := by cases v <;> decide +kernel

private theorem variant_of_isString {v : Variant} (h : IsString t v.name) (rest : Text) :
    variant (t ++ rest) = .ok v rest := by
  have hkey : key (t ++ rest) = .ok v.name rest := eat_string h rest
  rw [variant, located, bind_of_ok hkey, ofName?_variant]
  rfl

private theorem reads_null : Reads payload.null "null" () := by
  have hword (rest : Text) : Json.word "ull" ('u' :: 'l' :: 'l' :: rest) = .ok rest := by simp [Json.word]
  rw [Text.ofString_eq]
  refine ⟨⟨_, _, rfl, by decide, by decide⟩, fun gap rest hgap => ?_⟩
  show payload.null (gap ++ 'n' :: ('u' :: 'l' :: 'l' :: rest)) = _
  rw [payload.null, bind_peek hgap (by decide)]
  dsimp only
  rw [if_pos rfl, bind_eat, lift, hword]
  rfl

theorem Reads.map (h : Reads d t a) (g : α → β) : Reads (do return g (← d)) t (g a) :=
  ⟨h.starts, fun gap rest hgap => bind_of_ok (h.reads gap rest hgap)⟩

private theorem reads_payload {v : Variant} {x : Sentinel} (h : IsPayload v t x) : Reads (payload v) t x := by
  cases h with
  | emptyArray => exact reads_null.map fun _ => Sentinel.emptyArray
  | emptyCode => exact reads_null.map fun _ => Sentinel.emptyCode
  | command h => exact (reads_text h).map Sentinel.command
  | number h => exact (reads_text h).map Sentinel.number
  | string h => exact (reads_text h).map Sentinel.string

private theorem reads_bare {v : Variant} {x : Sentinel} (h : IsString t v.name)
    (hx : v = .emptyArray ∧ x = .emptyArray ∨ v = .emptyCode ∧ x = .emptyCode) : Reads sentinel t x := by
  have hvariant := variant_of_isString h
  obtain ⟨w, rfl⟩ := exists_quote h
  refine ⟨⟨_, _, rfl, by decide, by decide⟩, fun gap rest hgap => ?_⟩
  rw [List.cons_append, sentinel, bind_peek hgap (by decide)]
  dsimp only
  rw [if_neg (by decide), if_pos rfl, ← List.cons_append, bind_of_ok (hvariant rest)]
  obtain ⟨rfl, rfl⟩ | ⟨rfl, rfl⟩ := hx <;> rfl

private theorem variantKey_of_isString {v : Variant} (h : IsString t v.name) (hgap : IsGap gap) (rest : Text) :
    variantKey (gap ++ (t ++ rest)) = .ok v rest := by
  have hvariant := variant_of_isString h rest
  obtain ⟨w, rfl⟩ := exists_quote h
  rw [List.cons_append] at hvariant ⊢
  rw [variantKey, bind_peek hgap (by decide)]
  dsimp only
  rw [if_pos rfl, hvariant]

private theorem reads_sentinel {x : Sentinel} (h : IsSentinel t x) : Reads sentinel t x := by
  cases h with
  | emptyArray h => exact reads_bare (show IsString t Variant.emptyArray.name from h) (.inl ⟨rfl, rfl⟩)
  | emptyCode h => exact reads_bare (show IsString t Variant.emptyCode.name from h) (.inr ⟨rfl, rfl⟩)
  | @object gap₁ key gap₂ gap₃ u gap₄ v _ hgap₁ hkey hgap₂ hgap₃ hu hgap₄ =>
    refine ⟨⟨_, _, rfl, by decide, by decide⟩, fun gap rest hgap => ?_⟩
    have hwhole : gap ++
        ('\x7b' :: (gap₁ ++ (key ++ (gap₂ ++ ':' :: (gap₃ ++ (u ++ (gap₄ ++ ['\x7d'])))))) ++ rest) =
        gap ++ '\x7b' :: (gap₁ ++ (key ++ (gap₂ ++ ':' :: (gap₃ ++ (u ++ (gap₄ ++ '\x7d' :: rest)))))) := by
      simp
    rw [hwhole, sentinel, bind_peek hgap (by decide)]
    dsimp only
    rw [if_pos rfl, bind_eat, bind_of_ok (variantKey_of_isString hkey hgap₁ _), bind_of_ok (colon_gap hgap₂ _),
      bind_of_ok ((reads_payload hu).reads _ _ hgap₃), bind_peek hgap₄ (by decide)]
    rfl

theorem reads_entry {x : Text × Sentinel} (h : IsEntry t x) : Reads entry t x := by
  cases h with
  | @pair gap₁ t' gap₂ gap₃ u gap₄ type y hgap₁ ht hgap₂ hgap₃ hu hgap₄ =>
    refine ⟨⟨_, _, rfl, by decide, by decide⟩, fun gap rest hgap => ?_⟩
    have hwhole : gap ++ ('[' :: (gap₁ ++ (t' ++ (gap₂ ++ ',' :: (gap₃ ++ (u ++ (gap₄ ++ [']'])))))) ++ rest) =
        gap ++ '[' :: (gap₁ ++ (t' ++ (gap₂ ++ [','] ++ (gap₃ ++ (u ++ (gap₄ ++ ']' :: rest)))))) := by
      simp
    have hfirst : Lead ((0 : Nat) = 0) [] := .first
    have hsecond : Lead ((1 : Nat) = 0) (gap₂ ++ [',']) := .comma hgap₂
    rw [hwhole]
    refine inList_of_body hgap hgap₄ ?_ .pair
    rw [← List.nil_append (gap₁ ++ _), bind_of_ok (nextItem_lead hfirst hgap₁ (reads_text ht) _),
      bind_of_ok (nextItem_lead hsecond hgap₃ (reads_sentinel hu) _)]
    rfl

end

end SqfLayout.Convention.Decoder
