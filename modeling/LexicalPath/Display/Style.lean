import LexicalPath.Text.Blank
import LexicalPath.Text.Digit
import LexicalPath.Text.LowerCase
import LexicalPath.Text.Split
import LexicalPath.Text.Hex

namespace LexicalPath.Display

structure Style where
  /-- Attributes that are switched on or off. -/
  attributes : List (String × Bool) := []
  colour : Option String := none
  background : Option String := none
  link : Option String := none

inductive StyleFault where
  | unknown
  /-- A part of a colour without a digit. -/
  | notNumber
  deriving DecidableEq

namespace Style

/-- The attributes, in the order of normal forms, each with a short word if there is one. -/
def attributeWords : List (String × Option String) :=
  [("bold", some "b"), ("dim", some "d"), ("italic", some "i"), ("underline", some "u"),
   ("blink", none), ("blink2", none), ("reverse", some "r"), ("conceal", some "c"),
   ("strike", some "s"), ("underline2", some "uu"), ("frame", none), ("encircle", none),
   ("overline", some "o")]

def attribute? (word : String) : Option String :=
  (attributeWords.find? fun entry => entry.1 = word || entry.2 = some word).map (·.1)

def colourNames : List String :=
  ["black", "red", "green", "yellow", "blue", "magenta", "cyan", "white", "bright_black",
   "bright_red", "bright_green", "bright_yellow", "bright_blue", "bright_magenta", "bright_cyan",
   "bright_white", "grey0", "gray0", "navy_blue", "dark_blue", "blue3", "blue1", "dark_green",
   "deep_sky_blue4", "dodger_blue3", "dodger_blue2", "green4", "spring_green4", "turquoise4",
   "deep_sky_blue3", "dodger_blue1", "green3", "spring_green3", "dark_cyan", "light_sea_green",
   "deep_sky_blue2", "deep_sky_blue1", "spring_green2", "cyan3", "dark_turquoise", "turquoise2",
   "green1", "spring_green1", "medium_spring_green", "cyan2", "cyan1", "dark_red", "deep_pink4",
   "purple4", "purple3", "blue_violet", "orange4", "grey37", "gray37", "medium_purple4",
   "slate_blue3", "royal_blue1", "chartreuse4", "dark_sea_green4", "pale_turquoise4", "steel_blue",
   "steel_blue3", "cornflower_blue", "chartreuse3", "cadet_blue", "sky_blue3", "steel_blue1",
   "pale_green3", "sea_green3", "aquamarine3", "medium_turquoise", "chartreuse2", "sea_green2",
   "sea_green1", "aquamarine1", "dark_slate_gray2", "dark_magenta", "dark_violet", "purple",
   "light_pink4", "plum4", "medium_purple3", "slate_blue1", "yellow4", "wheat4", "grey53",
   "gray53", "light_slate_grey", "light_slate_gray", "medium_purple", "light_slate_blue",
   "dark_olive_green3", "dark_sea_green", "light_sky_blue3", "sky_blue2", "dark_sea_green3",
   "dark_slate_gray3", "sky_blue1", "chartreuse1", "light_green", "pale_green1",
   "dark_slate_gray1", "red3", "medium_violet_red", "magenta3", "dark_orange3", "indian_red",
   "hot_pink3", "medium_orchid3", "medium_orchid", "medium_purple2", "dark_goldenrod",
   "light_salmon3", "rosy_brown", "grey63", "gray63", "medium_purple1", "gold3", "dark_khaki",
   "navajo_white3", "grey69", "gray69", "light_steel_blue3", "light_steel_blue", "yellow3",
   "dark_sea_green2", "light_cyan3", "light_sky_blue1", "green_yellow", "dark_olive_green2",
   "dark_sea_green1", "pale_turquoise1", "deep_pink3", "magenta2", "hot_pink2", "orchid",
   "medium_orchid1", "orange3", "light_pink3", "pink3", "plum3", "violet", "light_goldenrod3",
   "tan", "misty_rose3", "thistle3", "plum2", "khaki3", "light_goldenrod2", "light_yellow3",
   "grey84", "gray84", "light_steel_blue1", "yellow2", "dark_olive_green1", "honeydew2",
   "light_cyan1", "red1", "deep_pink2", "deep_pink1", "magenta1", "orange_red1", "indian_red1",
   "hot_pink", "dark_orange", "salmon1", "light_coral", "pale_violet_red1", "orchid2", "orchid1",
   "orange1", "sandy_brown", "light_salmon1", "light_pink1", "pink1", "plum1", "gold1",
   "navajo_white1", "misty_rose1", "thistle1", "yellow1", "light_goldenrod1", "khaki1", "wheat1",
   "cornsilk1", "grey100", "gray100", "grey3", "gray3", "grey7", "gray7", "grey11", "gray11",
   "grey15", "gray15", "grey19", "gray19", "grey23", "gray23", "grey27", "gray27", "grey30",
   "gray30", "grey35", "gray35", "grey39", "gray39", "grey42", "gray42", "grey46", "gray46",
   "grey50", "gray50", "grey54", "gray54", "grey58", "gray58", "grey62", "gray62", "grey66",
   "gray66", "grey70", "gray70", "grey74", "gray74", "grey78", "gray78", "grey82", "gray82",
   "grey85", "gray85", "grey89", "gray89", "grey93", "gray93"]

/-- Whether the parts of a mixed colour are three numbers up to 255. -/
def checkParts (parts : List (List Char)) : Except StyleFault Unit :=
  if parts.length ≠ 3 then .error .unknown
  else if parts.any (·.isEmpty) then .error .notNumber
  else
    let values := parts.map fun part =>
      part.foldl (fun n c => n * 10 + (Text.digitValue? c).getD 0) 0
    if values.all (· ≤ 255) then .ok () else .error .unknown

def bracketed? (word : String) (s : List Char) : Option (List Char) :=
  let opening := word.toList ++ ['(']
  if opening.isPrefixOf s ∧ s.getLast? = some ')' ∧ opening.length < s.length then
    some ((s.drop opening.length).dropLast)
  else none

/-- Whether a word in small letters is a colour: a name, a number, six hexadecimal digits or a
mixture of red, green and blue. -/
def checkColour (s : List Char) : Except StyleFault Unit :=
  let isSmallHex (c : Char) : Bool := (Text.hexValue? c).isSome && !('A' ≤ c && c ≤ 'F')
  if s = "default".toList ∨ colourNames.contains (String.ofList s) then .ok ()
  else if s.head? = some '#' ∧ s.length = 7 ∧ s.tail.all isSmallHex then .ok ()
  else
    match bracketed? "color" s, bracketed? "rgb" s with
    | some digits, _ =>
        let n := digits.foldl (fun n c => n * 10 + (c.toNat - 48)) 0
        if digits.all Char.isDigit ∧ !digits.isEmpty ∧ digits.length ≤ 3 ∧ n ≤ 255 then .ok ()
        else .error .unknown
    | none, some mixed =>
        if mixed.all (fun c => c = ',' || (Text.digitValue? c).isSome) ∧ !mixed.isEmpty then
          checkParts (Text.pieces (· = ',') mixed)
        else .error .unknown
    | none, none => .error .unknown

def colourName (word : String) : Except StyleFault String :=
  let s := Text.lower word.toList
  (checkColour s).map fun _ => String.ofList s

def switch (s : Style) (word : String) (on : Bool) : Style :=
  { s with attributes := (word, on) :: s.attributes }

/-- The style that words define, beside what is defined already. -/
def ofWords (s : Style) : List String → Except StyleFault Style
  | [] => .ok s
  | word :: rest =>
      let small := String.ofList (Text.lower word.toList)
      match small, rest with
      | "on", [] | "not", [] | "link", [] => .error .unknown
      | "on", next :: rest =>
          match colourName next with
          | .error e => .error e
          | .ok name => ofWords { s with background := some name } rest
      | "not", next :: rest =>
          match attribute? next with
          | none => .error .unknown
          | some full => ofWords (s.switch full false) rest
      | "link", next :: rest => ofWords { s with link := some next } rest
      | _, rest =>
          match attribute? small with
          | some full => ofWords (s.switch full true) rest
          | none =>
              match colourName small with
              | .error e => .error e
              | .ok name => ofWords { s with colour := some name } rest

/-- The style that a text defines. The word `none` stands for no style. -/
def ofText (s : List Char) : Except StyleFault Style :=
  match (Text.runs Text.isBlank s).map String.ofList with
  | ["none"] => .ok {}
  | words => ofWords {} words

/-- The words of a style in order: attributes, colour, background and link. -/
def words (s : Style) : List String :=
  let switched := attributeWords.filterMap fun (word, _) =>
    (s.attributes.lookup word).map fun on => if on then word else "not " ++ word
  switched ++ s.colour.toList ++ (s.background.toList.flatMap fun colour => ["on", colour])
    ++ (s.link.toList.flatMap fun link => ["link", link])

/-- The normal form of a definition. What defines no style is put into small letters. -/
def normalForm (s : List Char) : Except StyleFault String :=
  match ofText s with
  | .error .notNumber => .error .notNumber
  | .error .unknown => .ok (String.ofList (Text.lower (Text.trim Text.isBlank s)))
  | .ok style =>
      match style.words with
      | [] => .ok "none"
      | words => .ok (" ".intercalate words)

end Style

end LexicalPath.Display
