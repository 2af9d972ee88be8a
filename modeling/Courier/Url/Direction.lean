import Courier.Text.Category
set_option autoImplicit false

/-!
# Labels written from right to left

A label with a character that runs from right to left must keep to one direction. The table gives the direction class
of every code point by runs: `L` and `R` and `A` letters that run left, right, and right as Arabic does, `E` and `N`
European and Arabic digits, `S` and `C` separators of numbers, `T` what ends a number, `O` neutral signs, `B` what has
no place, `M` marks, `X` all others.
-/

namespace Courier.Url

def directionTable : String := String.join [
  "B9X5BeX5O2T3O5SCSC2EaCO6LqO6LqO4B6XBqCOT4O4LO2BO2T2E2OLO3ELO5LnOLvOLchO2L7OeL2OeL5O9LOhM34L4O2L8OL5O2LOL32OL3w",
  "M7L74OL2O2TLM19RMRM2RM2RML8RrL4R6LbN6O2AT2ACAO2MbA1cMlNaTN2A3MA2tM7NOM6A2M2OM4A2EaAkLA2MAuMrL2A2hMbALeR17M9R2O",
  "4RL2MRoM4RM9RM3RM5L2RfLRpM3L2RLAbL5AvLN2L6M8A16MoNMwL1jMLML4M8L4ML3M7LaM2LtML1mML4M4L8MLkM2LeT2L7TL2ML2M2L1lML",
  "4M2L4M2L2M3L3MLuM2L3MLbM2L1lML4M5LM2L4MLkM2LdTL8M6LML1mML2MLM4L8ML7M2LbM2LuML1pMLcML11O6TOL5ML3ML1jMLM3L5M3LM4",
  "L7M2LbM2LkO7L2ML1mMLfM2LkM2LsM2L1lM2L4M4L8MLkM2LtML20ML7M3LML2iML2M7L4TL7M8L2qML2M9LbM6L22M2LrMLMLMO4L1fMeLM5L",
  "M2L5MbLM10L9ML2uM4LM6LM2L2M2LpM2L4M3LgM4LdML2M2L6MLfMLjjM3L1cOaL2uOLhrXLqO2L39M3LtM2LuM2LuM2L1sM2LM7L8ML2MbL7T",
  "LMLiOaL6ObM3BML39M2LyML3aM3L4M2L9ML6M3L4OL3O2L48OyLnM2L2ML1mMLM7LMLML2M8L6MaL2ML1cMvL1dM4L1cMLM5LML5ML14M9LcM2",
  "LwM4L2M2LM3L1kMLM2L3MLM3L1mM8L2M2L48M3LMdLM7L4ML6ML3M2L5iM1sLcdOLO3LbO3LdO3LdO3LdO2LXbB3LROoX7CT5OfCOqXB5LX4B6",
  "EL3E6S2O3LEaS2O3LhTxLfMxLfO2LO4LO2LaOLO3L5O6LOLOLOL4TLbO2L4O5L5O4L2OgL15O3L4O3mSTO82L1xOqLO41LpObLlO14EkL26Oci",
  "LO9fL74OhgL2OwLO2xL6dO6L4M3L7O7L3jML2oMwO2mLyOqLO2hLcO5yLqOcL4XO4L3OpL9M4L2OL5O2L5O3L2hM2O2L3OL2iOL5gO10L1lO2L",
  "1dOgLsO3L1eOfLcO4L4nO4L2rO2LvOL534O1sLh3kO1jL92O3L2nM4OMaO2LuM2L28M2LeOyL2uOL3dML3ML4MLpM2LO4MLbT2L1mO4L24M2Lq",
  "MiLdML12M8LpMbL1aM3L1cML2M4L2M2L13ML1vM6L2M2L2M2LcML8ML1bML1fMLM3L2M2L5M2LML16M2L8ML37O2L3dML2ML4MLfn3RMRaSRdL",
  "R5LRLR2LR2LRaA37LgAa3OiA1sL2A1iL7OLwAdO3MgOaL6MgOwCOCLOCO9TO2S2O3LOT2OL4A5LA3rL2BLO2T3O5SCSC2EaCO6LqO6LqObL3eT",
  "2O3T2LO7LaO5L77OL1qO25L3OdL3OL2kML6aMErL3eM5Lw5R6L2RLR18LR2L3RL2RnLR20L8R9L1cRjLR2L5RxL3ORqL5RL1sR1kL4RkL2R1bM",
  "3LM2L5M4R4LR3LRtL2M3L4MR9L7R9L7R1sLwR11M2L4RcL9R1iL3O7RmL2RrL5RqL7R4LcR7L28R21L1jR1fLdR1fL7R6A10M4L8NaL86NvLR1",
  "6LM2RL2R2L26R14L8AmMbA9LmRiM4R4L12RsLkRnLaML1iMfLbOkLaML2M2LaM3L1dM4L2M2L7ML1pM3L10M5LM8L1qMLcM2L1gM9LaM4L2ML2",
  "nM3L2MLM2L6ML4gML3M8LlM2L1lM2L3ML11M7L3M5L5fM8L2M3LMLnML2cM6LML4M2LM2L6mM4L6M2LM2LrM2L2dM8L2MLM2LvOdL1qMLML2M6",
  "LML2tM3L2M4LM5L77M9LM2L74M2LML4ML40M4L2M2L4MLwM6L2M2L14M6L2M4L8ML9M6L2M3L1aMdLM2LbaM7LM6L2cMmL2M7LM2LM2L3eM6L3",
  "MLM2LM7LML20M2L3MLML9nM2L68O8T4OhLetaM5L1nM7Lt4ML1rM4L27OLMLf5kM2LB4L3mkM1aL2MnLf4M3L9B8M8L2M7LuM4L1nO2LlO1uM3",
  "OL56O2fLp0OL1lOL1lOL1lOL1lOLaE1eLe8M1jL4M1eL8MLeMLmM5LMfL11sM7LMhL2M7LM2LM5L79M7LafML1pM4LfTLzkR5hL2R9M7L15R1w",
  "M7RL4RaL4R2LltA1wL24A1pL5eA4LArLA2LAL2ALAaLA4LALAL6AL4ALALALA3LA2LAL2ALALALALALA2LAL2A4LA7LA4LA4LALAaLAhL5A3LA",
  "5LAhL1gO2L7iO18L4O2sLcOfL2OfLOfLO11LaEbO5LvOL1mO6L1pOL4yO6L4aOrcL5OgL3OdL3O38LcO2hL7OcL4OLfOcL4O1kL8OaL6O14L8O",
  "uL2O2L26O9gLcOeL2O5L3O5L3O7L9OtL3ObL5O6LaOaL6O8L8O7L9O43LO1jL11EaLgvlzBLuB2oL3kM6oL47bk"]

def directionRuns : List (Char × Nat) := Text.readRuns 'B' (some 0) directionTable.toList

def direction (c : Char) : Char := Text.letterAt c.val.toNat directionRuns

/-- Whether a character makes its domain name one in which direction matters. -/
def isRightToLeft (c : Char) : Bool := (direction c == 'R') || (direction c == 'A') || (direction c == 'N')

def keepsDirection (label : List Char) : Bool :=
  let ds := label.map direction
  let last := (ds.reverse.dropWhile (· == 'M')).head?
  match ds.head? with
  | none => true
  | some d =>
    if d = 'R' ∨ d = 'A' then
      ds.all (['R', 'A', 'N', 'E', 'S', 'C', 'T', 'O', 'B', 'M'].contains ·)
        && last.any (['R', 'A', 'E', 'N'].contains ·)
        && !(ds.contains 'E' && ds.contains 'N')
    else if d = 'L' then
      ds.all (['L', 'E', 'S', 'C', 'T', 'O', 'B', 'M'].contains ·) && last.any (['L', 'E'].contains ·)
    else false

end Courier.Url
