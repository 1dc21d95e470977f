import Overprint.Codec.Content
import Overprint.Run

/-!
# The command line

A run on files whose formats this library reads and writes itself.
-/

namespace Overprint

abbrev FileStore := Disk Content

namespace FileStore

abbrev address (path : String) : List String :=
  Disk.address path

def configuration (store : FileStore) (path? : Option String) : Outcome Configuration :=
  Disk.configuration Content.formats store path?

def carryOut (store : FileStore) (configurationPath? : Option String) (invocation : Invocation) :
    Outcome String × FileStore :=
  Disk.carryOut Content.formats store configurationPath? invocation

def run (store : FileStore) (configurationPath? : Option String) (arguments : List (List UInt8)) :
    Report × FileStore :=
  Disk.run Content.formats store configurationPath? arguments

end FileStore

end Overprint
