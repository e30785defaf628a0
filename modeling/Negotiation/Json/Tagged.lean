import Negotiation.Json.Form

/-!
Values with a tag. The tag stands beside the content, each under a name of its own, or among the
members of the rest; in an array it comes first. What is met before the tag is known, or cannot be
told from the rest, is set aside and read leniently.
-/

namespace Negotiation.Json

/-- A tag and the content beside it. -/
def tagged (tagName contentName tag : String) (content : Json) : Json :=
  .obj [(tagName, .str tag), (contentName, content)]

/-- The tag at the front of an array: a string or, leniently, the number of one of `tags`. -/
def frontTag? (tags : List String) : Naming → Json → Option String
  | _, .str s => some s
  | .lenient, .int n => if 0 ≤ n then tags[n.toNat]? else none
  | _, _ => none

/-- Takes a tag and the content beside it apart, and says how the content is read. The members of an
object are met in the order of their names. Content that is left out of an object is null. -/
def besideTag? (tagName contentName : String) (tags : List String) (naming : Naming) :
    Json → Option (String × Json × Naming)
  | .obj ms => do
    let tag ← (← Members.get? ms tagName).name? naming
    some (tag, (Members.get? ms contentName).getD .null,
      if contentName < tagName then .lenient else naming)
  | .arr [tag, content] => do some (← frontTag? tags naming tag, content, naming)
  | _ => none

/-- Takes a tag and the rest of the value around it apart. The rest is read leniently. -/
def aroundTag? (tagName : String) : Json → Option (String × Json)
  | .obj ms => do some (← (← Members.get? ms tagName).str?, .obj ms)
  | .arr (tag :: rest) => do some (← tag.str?, .arr rest)
  | _ => none

end Negotiation.Json
