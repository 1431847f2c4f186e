import Downhill.Fault
import Downhill.Text.Shortest

/-!
# Literals

Simple values as they are written down where a name is expected.  Only a text can
be a name; everything else is refused, and shown as it would be written.
-/

namespace Downhill

/-- A value as it is written down. -/
inductive Literal
  | nothing
  | truth (b : Bool)
  | integer (n : Int)
  | real (x : Float)
  | text (s : String)
  | list (items : List Literal)

namespace Literal

instance : Inhabited Literal := ⟨nothing⟩

instance : Coe String Literal := ⟨text⟩

mutual

def shown : Literal → String
  | nothing => "None"
  | truth b => if b then "True" else "False"
  | integer n => toString n
  | real x => Text.shortest x
  | text s => Text.quote s
  | list items => "[" ++ ", ".intercalate (shownAll items) ++ "]"

def shownAll : List Literal → List String
  | [] => []
  | item :: rest => shown item :: shownAll rest

end

/-- What a value names, by the given look-up of names. -/
def resolve {β : Type} (family : NameFamily) (ofName : String → Except Fault β) :
    Literal → Except Fault β
  | text s => ofName s
  | value => .error (.unknownName family value.shown)

@[simp] theorem resolve_text {β : Type} (family : NameFamily) (ofName : String → Except Fault β)
    (s : String) : resolve family ofName (text s) = ofName s := rfl

end Literal

end Downhill
