import BlockScribe.Generate.Rule
/-!
# Rules for colours

A colour is a quoted `#rrggbb` text.  A random colour, a colour from red, green and blue
percentages, and a blend of two colours each call a helper function, registered once.

Source: `cumin-compiler/src/rules/colour.rs`: `picker`, `random`, `rgb` and `blend`.
-/

namespace BlockScribe
namespace Rules

/-- The helper that makes a random colour. -/
def colourRandomLines : List String :=
  ["function %FN%() \x7b",
    "  var num = Math.floor(Math.random() * Math.pow(2, 24));",
    "  return '#' + ('00000' + num.toString(16)).substr(-6);",
    "\x7d"]

/-- The helper that makes a colour from red, green and blue percentages. -/
def colourRgbLines : List String :=
  ["function %FN%(r, g, b) \x7b",
    "  r = Math.max(Math.min(Number(r), 100), 0) * 2.55;",
    "  g = Math.max(Math.min(Number(g), 100), 0) * 2.55;",
    "  b = Math.max(Math.min(Number(b), 100), 0) * 2.55;",
    "  r = ('0' + (Math.round(r) || 0).toString(16)).slice(-2);",
    "  g = ('0' + (Math.round(g) || 0).toString(16)).slice(-2);",
    "  b = ('0' + (Math.round(b) || 0).toString(16)).slice(-2);",
    "  return '#' + r + g + b;",
    "\x7d"]

/-- The helper that blends two colours. -/
def colourBlendLines : List String :=
  ["function %FN%(c1, c2, ratio) \x7b",
    "  ratio = Math.max(Math.min(Number(ratio), 1), 0);",
    "  var r1 = parseInt(c1.substring(1, 3), 16);",
    "  var g1 = parseInt(c1.substring(3, 5), 16);",
    "  var b1 = parseInt(c1.substring(5, 7), 16);",
    "  var r2 = parseInt(c2.substring(1, 3), 16);",
    "  var g2 = parseInt(c2.substring(3, 5), 16);",
    "  var b2 = parseInt(c2.substring(5, 7), 16);",
    "  var r = Math.round(r1 * (1 - ratio) + r2 * ratio);",
    "  var g = Math.round(g1 * (1 - ratio) + g2 * ratio);",
    "  var b = Math.round(b1 * (1 - ratio) + b2 * ratio);",
    "  r = ('0' + (r || 0).toString(16)).slice(-2);",
    "  g = ('0' + (g || 0).toString(16)).slice(-2);",
    "  b = ('0' + (b || 0).toString(16)).slice(-2);",
    "  return '#' + r + g + b;",
    "\x7d"]

/-- A colour constant, red when absent. -/
def colourPicker : Rule := fun _ b =>
  pure (.value (Text.quote ((b.field? "COLOUR").getD "#ff0000")) .atomic)

/-- A random colour. -/
def colourRandom : Rule := fun _ _ => do
  let helper ← GenM.provide "colourRandom" colourRandomLines
  pure (.value (helper ++ "()") .call)

/-- A colour from red, green and blue. -/
def colourRgb : Rule := fun ch _ => do
  let red ← ch.valueOr "RED" .comma "0"
  let green ← ch.valueOr "GREEN" .comma "0"
  let blue ← ch.valueOr "BLUE" .comma "0"
  let helper ← GenM.provide "colourRgb" colourRgbLines
  pure (.value (helper ++ "(" ++ red ++ ", " ++ green ++ ", " ++ blue ++ ")") .call)

/-- A blend of two colours. -/
def colourBlend : Rule := fun ch _ => do
  let c1 ← ch.valueOr "COLOUR1" .comma "'#000000'"
  let c2 ← ch.valueOr "COLOUR2" .comma "'#000000'"
  let ratio ← ch.valueOr "RATIO" .comma "0.5"
  let helper ← GenM.provide "colourBlend" colourBlendLines
  pure (.value (helper ++ "(" ++ c1 ++ ", " ++ c2 ++ ", " ++ ratio ++ ")") .call)

end Rules
end BlockScribe
