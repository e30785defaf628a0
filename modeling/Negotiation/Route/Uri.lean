import Negotiation.Route.Address

/-!
URIs of agents: `protocol://core/core key/namespaces/agent key/label`. A text with fewer than seven
parts reads as the empty URI, which names nobody and is written as the empty text.
-/

namespace Negotiation

/-- The full name of an agent: the core it is found at, namespaces, its key and a label. -/
structure Uri where
  protocol : String := "tcp"
  coreUri : String := ""
  coreKey : String := ""
  namespaces : List String := []
  agentKey : String := ""
  label : String := ""
  empty : Bool := false
  deriving DecidableEq, Inhabited

namespace Uri

/-- The URI that names nobody. -/
def nobody : Uri := { empty := true }

/-- The URI of an address, without a core. -/
def ofAddress (a : Address) : Uri := { agentKey := a.key, label := a.label.getD "" }

/-- The URI at the core that listens on a host and port. -/
def atCore (u : Uri) (host : String) (port : UInt16) : Uri :=
  { u with coreUri := host ++ ":" ++ toString port.toNat }

/-- The URI with one more namespace at the end. -/
def within (u : Uri) (ns : String) : Uri := { u with namespaces := u.namespaces ++ [ns] }

/-- A text without the colons at its end. -/
def trimColons (s : String) : String :=
  String.ofList (s.toList.reverse.dropWhile (· = ':')).reverse

/-- Reads the parts of a URI: four at the front, two at the back and one or more between them, of
which those that are empty count as no namespaces. -/
def ofParts : List String → Uri
  | protocol :: _ :: coreUri :: coreKey :: rest =>
    match rest.reverse with
    | label :: agentKey :: ns@(_ :: _) =>
      { protocol := trimColons protocol, coreUri, coreKey, agentKey, label
        namespaces := ns.reverse.filter (· ≠ "") }
    | _ => nobody
  | _ => nobody

/-- Reads a URI. -/
def parse (text : String) : Uri := ofParts (Parts.ofText text)

/-- The text of a URI. -/
def text (u : Uri) : String :=
  if u.empty then ""
  else
    u.protocol ++ "://" ++ u.coreUri ++ "/" ++ u.coreKey ++ "/" ++ Parts.text u.namespaces ++ "/"
      ++ u.agentKey ++ "/" ++ u.label

/-- The address of the agent that is named, if one is. -/
def address? (u : Uri) : Option Address :=
  if u.empty ∨ u.agentKey = "" then none
  else some { key := u.agentKey, label := Address.labelOf u.label }

/-- The URI itself when it names the agent of `fallback`, and the URI of `fallback` otherwise. -/
def namingOr (u : Uri) (fallback : Address) : Uri :=
  match u.address? with
  | some a => if a.sameAgent fallback then u else ofAddress fallback
  | none => ofAddress fallback

end Uri

end Negotiation
