import Ladybug.Exchange.AutomatonXml
import Ladybug.Exchange.Json
import Ladybug.Exchange.WorldXml

/-!
# Telling the formats apart

* `looksLikeXml`        a text opens with a declaration, or with the root that is expected
* `readAnyWorld`, `readAnyAutomaton`   reading in the format that a text seems to have
-/

namespace Ladybug.Exchange
open Ladybug

def worldRoot : String := "XmlWorld"
def automatonRoot : String := "XmlStateMachines"

def looksLikeXml (content root : String) : Bool :=
  let cs := content.toList.dropWhile Text.isBlank
  "<?xml".toList.isPrefixOf cs || ('<' :: root.toList).isPrefixOf cs

def readAnyWorld (content : String) : Except Refusal World :=
  if looksLikeXml content worldRoot then readWorldXml content
  else readWorld content

def readAnyAutomaton (content : String) : Except Refusal Automaton :=
  if looksLikeXml content automatonRoot then readAutomatonXml content
  else readAutomaton content

end Ladybug.Exchange
