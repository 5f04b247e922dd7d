import SqfLayout.Convention

/-! The lines that a new file starts with. -/
namespace SqfLayout.Convention

/-- The author of a new file: the one given, or the first of the convention. -/
def authorOf (c : Convention) (author? : Option Text) : Text :=
  author?.getD (c.authors.head?.getD [])

@[simp] theorem authorOf_some (c : Convention) (name : Text) : c.authorOf (some name) = name := rfl

/-- Where no author is given, a file that names an author names one that its header may name. -/
theorem isAuthor_authorOf_none {c : Convention} (h : c.authors ≠ []) : c.isAuthor (c.authorOf none) = true := by
  obtain ⟨name, others, hauthors⟩ := List.exists_cons_of_ne_nil h
  rw [isAuthor_iff]
  simp [authorOf, hauthors]

/-- The include line, the header comment and an empty line, for a file without parameters. -/
def skeleton (c : Convention) (author? : Option Text) : Text :=
  "#include \"" ++ c.header ++ "\"\n/*\n    " ++ c.title ++ "\n\n    Author: " ++
    c.authorOf author? ++
    "\n\n    Description:\n    Does nothing yet.\n\n    Parameter(s):\n    None\n*/\n\n"

end SqfLayout.Convention
