/-!
# Named colours

The colour words of the web that a colour may be given by.
-/

namespace Overprint.Color

def named : List (String × UInt8 × UInt8 × UInt8) := [
  ("black", 0, 0, 0),
  ("white", 255, 255, 255),
  ("red", 255, 0, 0),
  ("lime", 0, 255, 0),
  ("green", 0, 128, 0),
  ("blue", 0, 0, 255),
  ("yellow", 255, 255, 0),
  ("cyan", 0, 255, 255),
  ("aqua", 0, 255, 255),
  ("magenta", 255, 0, 255),
  ("fuchsia", 255, 0, 255),
  ("silver", 192, 192, 192),
  ("gray", 128, 128, 128),
  ("grey", 128, 128, 128),
  ("darkgray", 169, 169, 169),
  ("darkgrey", 169, 169, 169),
  ("lightgray", 211, 211, 211),
  ("lightgrey", 211, 211, 211),
  ("dimgray", 105, 105, 105),
  ("dimgrey", 105, 105, 105),
  ("maroon", 128, 0, 0),
  ("olive", 128, 128, 0),
  ("purple", 128, 0, 128),
  ("teal", 0, 128, 128),
  ("navy", 0, 0, 128),
  ("orange", 255, 165, 0),
  ("darkorange", 255, 140, 0),
  ("gold", 255, 215, 0),
  ("pink", 255, 192, 203),
  ("brown", 165, 42, 42),
  ("crimson", 220, 20, 60),
  ("darkred", 139, 0, 0),
  ("firebrick", 178, 34, 34),
  ("tomato", 255, 99, 71),
  ("coral", 255, 127, 80),
  ("salmon", 250, 128, 114),
  ("indigo", 75, 0, 130),
  ("violet", 238, 130, 238),
  ("darkblue", 0, 0, 139),
  ("royalblue", 65, 105, 225),
  ("steelblue", 70, 130, 180),
  ("skyblue", 135, 206, 235),
  ("lightblue", 173, 216, 230),
  ("darkgreen", 0, 100, 0),
  ("forestgreen", 34, 139, 34),
  ("lightgreen", 144, 238, 144),
  ("beige", 245, 245, 220),
  ("ivory", 255, 255, 240),
  ("khaki", 240, 230, 140),
  ("tan", 210, 180, 140),
  ("chocolate", 210, 105, 30),
  ("whitesmoke", 245, 245, 245),
  ("gainsboro", 220, 220, 220)]

/-- The bytes of a colour word. -/
def named? (word : String) : Option (UInt8 × UInt8 × UInt8) :=
  named.lookup word

end Overprint.Color
