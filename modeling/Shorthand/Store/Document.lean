import Shorthand.Store
import Shorthand.Text.Lines

/-!
# Documents

The text of a file: its octets read as UTF-8, with the line ends unified.
-/

namespace Shorthand

inductive DocumentFault where
  | file (f : FileFault)
  | encoding (f : Text.Utf8.Fault)
  deriving Repr, DecidableEq

def DocumentFault.message : DocumentFault → Text
  | file f => f.message
  | encoding f => f.message

namespace Store

def document (s : Store) (p : Path) : Except DocumentFault Text :=
  match s.read p with
  | .error f => .error (.file f)
  | .ok octets =>
    match Text.ofUtf8 octets with
    | .error f => .error (.encoding f)
    | .ok t => .ok (Text.unifyLineEnds t)

/-- Whether a path leads to something. That nothing is there is no fault, nor that it cannot be. -/
def holds (s : Store) (p : Path) : Except FileFault Bool :=
  match s.lookupPath p with
  | .ok _ => .ok true
  | .error (.system .nameTooLong path) => .error (.system .nameTooLong path)
  | .error _ => .ok false

end Store

end Shorthand
