import SqfLayout.Text

/-! Ways of setting text apart on a terminal. -/
namespace SqfLayout.Style

/-- Bright red on a terminal. -/
def red (text : Text) : Text := "\x1b[91m" ++ text ++ "\x1b[39m"

/-- Bright blue on a terminal. -/
def blue (text : Text) : Text := "\x1b[94m" ++ text ++ "\x1b[39m"

/-- Bold on a terminal. -/
def bold (text : Text) : Text := "\x1b[1m" ++ text ++ "\x1b[0m"

end SqfLayout.Style
