import BlockGraph.Text.Blank
import BlockGraph.Text.Case
import BlockGraph.Text.Digit
/-!
Styles: what a tag asks for, as effects, colours and a link. Ways to ask for one style have one
canonical name, so that a tag may be closed by another spelling of it.
-/
namespace BlockGraph.Terminal

/-- What a style can switch on or off, in the order of canonical names, each with its short forms. -/
def effects : List (String × List String) :=
  [("bold", ["b"]), ("dim", ["d"]), ("italic", ["i"]), ("underline", ["u"]), ("blink", []),
   ("blink2", []), ("reverse", ["r"]), ("conceal", ["c"]), ("strike", ["s"]), ("underline2", ["uu"]),
   ("frame", []), ("encircle", []), ("overline", ["o"])]

/-- The effect with this name or short form. -/
def effect? (word : String) : Option String :=
  (effects.find? fun (name, short) => name == word || short.contains word).map (·.1)

/-- The names of colours, the default of the terminal among them. -/
def colourNames : List String :=
  ("black red green yellow blue magenta cyan white bright_black bright_red bright_green" ++
    " bright_yellow bright_blue bright_magenta bright_cyan bright_white grey0 gray0 navy_blue" ++
    " dark_blue blue3 blue1 dark_green deep_sky_blue4 dodger_blue3 dodger_blue2 green4" ++
    " spring_green4 turquoise4 deep_sky_blue3 dodger_blue1 green3 spring_green3 dark_cyan" ++
    " light_sea_green deep_sky_blue2 deep_sky_blue1 spring_green2 cyan3 dark_turquoise" ++
    " turquoise2 green1 spring_green1 medium_spring_green cyan2 cyan1 dark_red deep_pink4" ++
    " purple4 purple3 blue_violet orange4 grey37 gray37 medium_purple4 slate_blue3 royal_blue1" ++
    " chartreuse4 dark_sea_green4 pale_turquoise4 steel_blue steel_blue3 cornflower_blue" ++
    " chartreuse3 cadet_blue sky_blue3 steel_blue1 pale_green3 sea_green3 aquamarine3" ++
    " medium_turquoise chartreuse2 sea_green2 sea_green1 aquamarine1 dark_slate_gray2" ++
    " dark_magenta dark_violet purple light_pink4 plum4 medium_purple3 slate_blue1 yellow4" ++
    " wheat4 grey53 gray53 light_slate_grey light_slate_gray medium_purple light_slate_blue" ++
    " dark_olive_green3 dark_sea_green light_sky_blue3 sky_blue2 dark_sea_green3" ++
    " dark_slate_gray3 sky_blue1 chartreuse1 light_green pale_green1 dark_slate_gray1 red3" ++
    " medium_violet_red magenta3 dark_orange3 indian_red hot_pink3 medium_orchid3 medium_orchid" ++
    " medium_purple2 dark_goldenrod light_salmon3 rosy_brown grey63 gray63 medium_purple1 gold3" ++
    " dark_khaki navajo_white3 grey69 gray69 light_steel_blue3 light_steel_blue yellow3" ++
    " dark_sea_green2 light_cyan3 light_sky_blue1 green_yellow dark_olive_green2 dark_sea_green1" ++
    " pale_turquoise1 deep_pink3 magenta2 hot_pink2 orchid medium_orchid1 orange3 light_pink3" ++
    " pink3 plum3 violet light_goldenrod3 tan misty_rose3 thistle3 plum2 khaki3 light_goldenrod2" ++
    " light_yellow3 grey84 gray84 light_steel_blue1 yellow2 dark_olive_green1 honeydew2" ++
    " light_cyan1 red1 deep_pink2 deep_pink1 magenta1 orange_red1 indian_red1 hot_pink" ++
    " dark_orange salmon1 light_coral pale_violet_red1 orchid2 orchid1 orange1 sandy_brown" ++
    " light_salmon1 light_pink1 pink1 plum1 gold1 navajo_white1 misty_rose1 thistle1 yellow1" ++
    " light_goldenrod1 khaki1 wheat1 cornsilk1 grey100 gray100 grey3 gray3 grey7 gray7 grey11" ++
    " gray11 grey15 gray15 grey19 gray19 grey23 gray23 grey27 gray27 grey30 gray30 grey35 gray35" ++
    " grey39 gray39 grey42 gray42 grey46 gray46 grey50 gray50 grey54 gray54 grey58 gray58 grey62" ++
    " gray62 grey66 gray66 grey70 gray70 grey74 gray74 grey78 gray78 grey82 gray82 grey85 gray85" ++
    " grey89 gray89 grey93 gray93 default").splitOn " "

/-- Why a text is no colour; what should be a number may be missing altogether. -/
inductive ColourFault where
  | unknown
  | noNumber
deriving DecidableEq, Repr

/-- A number of decimal digits. -/
def decimalNumber (cs : List Char) : Except ColourFault Nat :=
  if cs.isEmpty then .error .noNumber
  else .ok (cs.foldl (fun n c => 10 * n + (Text.digitValue? c).getD 0) 0)

/-- Whether the text between the brackets of `color` is a number up to 255. -/
def isColourNumber (cs : List Char) : Bool :=
  cs.length ≤ 3 && cs.all Char.isDigit && match decimalNumber cs with
    | .ok n => n ≤ 255
    | .error _ => false

/-- Whether the text between the brackets of `rgb` is three numbers up to 255. -/
def isColourTriple (cs : List Char) : Except ColourFault Bool :=
  let parts := cs.splitOn ','
  if cs.isEmpty || parts.length ≠ 3 || !parts.flatten.all (fun c => (Text.digitValue? c).isSome) then
    .ok false
  else do return (← parts.mapM decimalNumber).all (· ≤ 255)

/-- What stands between the brackets of a text of the form `word(…)`. -/
def bracketed? (word : String) (cs : List Char) : Option (List Char) :=
  let opening := word.toList ++ ['(']
  if opening.isPrefixOf cs && cs.getLast? == some ')' then some (cs.drop opening.length).dropLast
  else none

/-- The canonical name of a colour: one of the names, six hexadecimal digits behind a hash sign, a
number, or its three parts. -/
def colour (word : String) : Except ColourFault String :=
  let name := Text.lower word
  let cs := name.toList
  let known := colourNames.contains name ||
    (cs.length = 7 && cs.head? == some '#' && (cs.drop 1).all fun c => (Text.hexDigit? c).isSome) ||
    (bracketed? "color" cs).any isColourNumber
  if known then .ok name
  else match bracketed? "rgb" cs with
    | some inner => do if ← isColourTriple inner then .ok name else .error .unknown
    | none => .error .unknown

/-- A style: effects that are on or off, colours of text and background, and a link. -/
structure Style where
  switches : List (String × Bool)
  colour? : Option String
  background? : Option String
  link? : Option String

namespace Style

def plain : Style := ⟨[], none, none, none⟩

/-- Switches an effect; what was said about it before no longer counts. -/
def switch (s : Style) (effect : String) (on : Bool) : Style :=
  { s with switches := (effect, on) :: s.switches }

/-- Reads the words of a style. -/
def ofWords (s : Style) : List String → Except ColourFault Style
  | [] => .ok s
  | [word] =>
    let name := Text.lower word
    if ["on", "not", "link"].contains name then .error .unknown
    else match effect? name with
      | some effect => .ok (s.switch effect true)
      | none => do return { s with colour? := some (← colour name) }
  | word :: next :: rest =>
    let name := Text.lower word
    if name == "on" then do ofWords { s with background? := some (← colour next) } rest
    else if name == "not" then match effect? next with
      | some effect => ofWords (s.switch effect false) rest
      | none => .error .unknown
    else if name == "link" then ofWords { s with link? := some next } rest
    else match effect? name with
      | some effect => ofWords (s.switch effect true) (next :: rest)
      | none => do ofWords { s with colour? := some (← colour name) } (next :: rest)

/-- The canonical name of a style. -/
def name (s : Style) : String :=
  let switched := effects.filterMap fun (effect, _) =>
    (s.switches.lookup effect).map fun on => if on then effect else "not " ++ effect
  let coloured := s.colour?.toList ++ (s.background?.toList.map ("on " ++ ·)) ++
    (s.link?.toList.map ("link " ++ ·))
  match switched ++ coloured with
  | [] => "none"
  | parts => " ".intercalate parts

end Style

/-- The name of what a tag asks for: the canonical name of a style, or else the tag in small letters. -/
def styleName (tag : String) : Except ColourFault String :=
  if Text.trim tag == "none" then .ok "none"
  else
    let words := (tag.toList.splitOnP Text.isBlank).filter (!·.isEmpty)
    match Style.plain.ofWords (words.map String.ofList) with
    | .ok s => .ok s.name
    | .error .unknown => .ok (Text.lower (Text.trim tag))
    | .error .noNumber => .error .noNumber

end BlockGraph.Terminal
