import Landform.Kind

/-!
# Helper functions

Two functions that the generated code calls are not provided by the game and are defined in the
code itself, each when a node of a kind that calls it is present.
-/

namespace Landform.Lua

/-- The functions that the code defines for itself. -/
inductive Helper where
  | mandelbrot
  | gaussian
deriving Repr, DecidableEq

namespace Helper

def name : Helper → String
  | mandelbrot => "mandelbrot"
  | gaussian => "gaussian"

/-- The lines that define a helper. -/
def lines : Helper → List String
  | mandelbrot => [
    "-- Mandelbrot escape steps",
    "local function mandelbrot(x, z, steps)",
    "    local a = 0",
    "    local b = 0",
    "    for i = 0, steps do",
    "        local old_a = a",
    "        a = (a^2 - b^2) + x",
    "        b = 2 * old_a * b + z",
    "        if a^2 + b^2 > 20 then return i end",
    "    end",
    "    return steps",
    "end"]
  | gaussian => [
    "-- Gaussian falloff",
    "local function gaussian(x, y, z, cx, cy, cz, spread)",
    "    local dx = x - cx",
    "    local dy = y - cy",
    "    local dz = z - cz",
    "    local dist_sq = dx * dx + dy * dy + dz * dz",
    "    return math.exp(-dist_sq / (2 * spread * spread))",
    "end"]

/-- The helper that the code of a kind calls. -/
def ofKind? : Kind → Option Helper
  | .mandelbrot => some mandelbrot
  | .gaussian => some gaussian
  | _ => none

end Helper

end Landform.Lua
