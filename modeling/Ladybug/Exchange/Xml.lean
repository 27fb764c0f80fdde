import Ladybug.Decimal.Read
import Ladybug.Exchange.Refusal
import Ladybug.Text.Blank
import Ladybug.Text.Half
import Ladybug.Xml.Reader

/-!
# What both XML formats need

* `parseXml`          the root of a document of some kind
* `findElement`       the first element with a name
* `intAttribute`      an attribute that holds a number
-/

namespace Ladybug.Exchange
open Ladybug

def formatVersion : String := "KaraX 1.0 kara"
def actorName : String := "Kara"

def malformed (what : String) : Fault :=
  .parse ("Invalid XML format in " ++ what ++ " file") none (some "xml")

def parseXml (what content : String) : Except Refusal Xml.Element :=
  if Text.hasHalf content then .error .half
  else match Xml.read (Text.trimBlanks content) with
    | some root => .ok root
    | none => .error (.fault (malformed what))

/-- The root itself, or the first element inside it. -/
def findElement (root : Xml.Element) (name : String) : Option Xml.Element :=
  root.within.find? fun e => e.isNamed name

/-- The integer part of a number, or a default for a blank text. -/
def intAttribute (e : Xml.Element) (name : String) (default : Int) : Except Refusal Int :=
  match e.attribute? name with
  | none => .ok default
  | some value =>
    if (Text.trimBlanks value).isEmpty then .ok default
    else
      let refusal := Refusal.fault (.parse ("Attribute " ++ name ++ "=\"" ++ value ++ "\" on <"
        ++ e.name.base ++ "> is not a number"))
      match Decimal.number? value with
      | none | some .nan => .error refusal
      | some (.infinite _) => .error .tooLarge
      | some x => .ok (x.toInt?.getD 0)

/-- a number, which a blank text is not -/
def numberAttribute (e : Xml.Element) (name : String) (default : Binary) : Except Fault Binary :=
  match e.attribute? name with
  | none => .ok default
  | some value =>
    match Decimal.number? value with
    | some x => .ok x
    | none => .error (.parse ("Attribute " ++ name ++ " on <" ++ e.name.base
        ++ "> is not a number"))

end Ladybug.Exchange
