/-!
# Character Cells

A cell of the text screen is sixteen bits: a character in the low byte, and in
the high byte its attribute: the background colour above the foreground one.

## Main definitions

* `Color`: The sixteen colours of text mode, with their codes and names.
* `Colors`: A foreground and a background.
* `Colors.cell`: The cell of a character drawn in them.
-/

namespace KernelConsole

/-- The colours of text mode. The second eight are the bright variants of the
    first. -/
inductive Color
  | black
  | blue
  | green
  | cyan
  | red
  | magenta
  | brown
  | lightGray
  | darkGray
  | lightBlue
  | lightGreen
  | lightCyan
  | lightRed
  | pink
  | yellow
  | white
deriving DecidableEq

/-- The four bits of a colour. -/
def Color.code : Color → UInt8
  | black => 0
  | blue => 1
  | green => 2
  | cyan => 3
  | red => 4
  | magenta => 5
  | brown => 6
  | lightGray => 7
  | darkGray => 8
  | lightBlue => 9
  | lightGreen => 10
  | lightCyan => 11
  | lightRed => 12
  | pink => 13
  | yellow => 14
  | white => 15

/-- The name of a colour. -/
def Color.name : Color → String
  | black => "Black"
  | blue => "Blue"
  | green => "Green"
  | cyan => "Cyan"
  | red => "Red"
  | magenta => "Magenta"
  | brown => "Brown"
  | lightGray => "LightGray"
  | darkGray => "DarkGray"
  | lightBlue => "LightBlue"
  | lightGreen => "LightGreen"
  | lightCyan => "LightCyan"
  | lightRed => "LightRed"
  | pink => "Pink"
  | yellow => "Yellow"
  | white => "White"

/-- Every colour, in the order of the codes. -/
def Color.all : List Color :=
  [black, blue, green, cyan, red, magenta, brown, lightGray, darkGray, lightBlue, lightGreen,
   lightCyan, lightRed, pink, yellow, white]

/-- The colour of a given name. -/
def Color.ofName? (name : String) : Option Color :=
  all.find? fun c => c.name == name

/-- How characters are drawn. -/
structure Colors where
  /-- The colour of the character. -/
  foreground : Color := .lightGray
  /-- The colour behind it. -/
  background : Color := .black
deriving DecidableEq

namespace Colors

/-- The two colours as an attribute byte, the background in its high half. -/
def byte (colors : Colors) : UInt8 :=
  colors.background.code <<< 4 ||| colors.foreground.code

/-- The cell of a character. -/
def cell (colors : Colors) (c : UInt8) : UInt16 :=
  colors.byte.toUInt16 <<< 8 ||| c.toUInt16

/-- The cell of a space. -/
def blank (colors : Colors) : UInt16 := colors.cell 0x20

end Colors

end KernelConsole
