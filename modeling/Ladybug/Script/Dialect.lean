import Ladybug.Path
import Ladybug.World.Command
import Ladybug.World.Sensor

/-!
# Dialects: the four ways to write a script

* `Dialect`            two with braces, one with indented blocks, one with `end`
* `Dialect.ofFile?`    the dialect of a file by the end of its name
* `commandNames`, `sensorNames`   what can be called, in every spelling
-/

namespace Ladybug

/-- `braced` and `functional` write blocks in braces; the entry routine of the first is introduced
by `void` and that of the second by `function`. -/
inductive Dialect where
  | braced
  | indented
  | functional
  | ended
deriving DecidableEq, Repr

namespace Dialect

def all : List Dialect := [.braced, .indented, .functional, .ended]

def name : Dialect → String
  | .braced => "JavaKara"
  | .indented => "PythonKara"
  | .functional => "JavaScriptKara"
  | .ended => "RubyKara"

def ofName? (s : String) : Option Dialect := all.find? fun d => d.name == s

def hasBraces : Dialect → Bool
  | .braced | .functional => true
  | _ => false

/-- the name of the routine that is run -/
def entryName (d : Dialect) : String := if d.hasBraces then "myProgram" else "my_program"

def fileExtension : Dialect → String
  | .braced => ".java"
  | .indented => ".py"
  | .functional => ".js"
  | .ended => ".rb"

def mediaType : Dialect → String
  | .braced => "text/x-java-source"
  | .indented => "text/x-python"
  | .functional => "text/javascript"
  | .ended => "text/x-ruby"

/-- the commands as a message lists them -/
def commandList (d : Dialect) : String :=
  if d.hasBraces then "move, turnLeft, turnRight, putLeaf, removeLeaf"
  else "move, turn_left, turn_right, put_leaf, remove_leaf"

/-- a small entry routine -/
def example_ : Dialect → String
  | .braced => "void myProgram() \x7b\n  kara.move();\n\x7d"
  | .indented => "def my_program(self):\n    kara.move()"
  | .functional => "function myProgram() \x7b\n  kara.move();\n\x7d"
  | .ended => "def my_program\n  kara.move\nend"

/-- the lines that a new script starts with -/
def templateLines : Dialect → List String
  | .braced =>
    ["import javakara.JavaKaraProgram;",
     "",
     "/*",
     " * COMMANDS:",
     " *   kara.move()             kara.turnRight()        kara.turnLeft()",
     " *   kara.putLeaf()          kara.removeLeaf()",
     " * SENSORS:",
     " *   kara.treeFront()        kara.treeLeft()         kara.treeRight()",
     " *   kara.mushroomFront()    kara.onLeaf()",
     " */",
     "public class MyProgram extends JavaKaraProgram \x7b",
     "    //",
     "    // you can define your methods here:",
     "    //",
     "    public void myProgram() \x7b",
     "        // put your main program here, for example:",
     "        while (!kara.treeFront()) \x7b",
     "            kara.move();",
     "        \x7d",
     "    \x7d",
     "\x7d"]
  | .indented =>
    ["from pythonkara import PythonKaraProgram",
     "",
     "\"\"\"",
     "COMMANDS:",
     "    kara.move()             kara.turn_right()       kara.turn_left()",
     "    kara.put_leaf()         kara.remove_leaf()",
     "SENSORS:",
     "    kara.tree_front()       kara.tree_left()        kara.tree_right()",
     "    kara.mushroom_front()   kara.on_leaf()",
     "\"\"\"",
     "",
     "class MyProgram(PythonKaraProgram):",
     "    def my_program(self):",
     "        # put your main program here, for example:",
     "        while not kara.tree_front():",
     "            kara.move()"]
  | .functional =>
    ["// JavaScriptKara Program",
     "",
     "/*",
     " * COMMANDS:",
     " *   kara.move()             kara.turnRight()        kara.turnLeft()",
     " *   kara.putLeaf()          kara.removeLeaf()",
     " * SENSORS:",
     " *   kara.treeFront()        kara.treeLeft()         kara.treeRight()",
     " *   kara.mushroomFront()    kara.onLeaf()",
     " */",
     "",
     "function myProgram() \x7b",
     "    // put your main program here, for example:",
     "    while (!kara.treeFront()) \x7b",
     "        kara.move();",
     "    \x7d",
     "\x7d"]
  | .ended =>
    ["require 'rubykara'",
     "",
     "# COMMANDS:",
     "#   kara.move               kara.turn_right         kara.turn_left",
     "#   kara.put_leaf           kara.remove_leaf",
     "# SENSORS:",
     "#   kara.tree_front?        kara.tree_left?         kara.tree_right?",
     "#   kara.mushroom_front?    kara.on_leaf?",
     "",
     "class MyProgram < RubyKaraProgram",
     "  def my_program",
     "    # put your main program here, for example:",
     "    while !kara.tree_front?",
     "      kara.move",
     "    end",
     "  end",
     "end"]

def template (d : Dialect) : String :=
  String.join (d.templateLines.map fun line => line ++ "\n")

def ofFile? (path : String) : Option Dialect :=
  let s := Text.lower (Path.ofText path).suffix
  all.find? fun d => d.fileExtension == s

end Dialect

namespace Script

/-- the object on which commands and sensors are called -/
def receiver : String := "kara"

def commandNames : List (String × Command) :=
  [("move", .moveForward),
   ("turnLeft", .turnLeft), ("turn_left", .turnLeft),
   ("turnRight", .turnRight), ("turn_right", .turnRight),
   ("putLeaf", .placeClover), ("put_leaf", .placeClover),
   ("placeClover", .placeClover), ("place_clover", .placeClover),
   ("removeLeaf", .pickClover), ("remove_leaf", .pickClover),
   ("pickClover", .pickClover), ("pick_clover", .pickClover)]

def sensorNames : List (String × Detector) :=
  [("treeFront", .treeFront), ("tree_front", .treeFront),
   ("treeLeft", .treeLeft), ("tree_left", .treeLeft),
   ("treeRight", .treeRight), ("tree_right", .treeRight),
   ("mushroomFront", .mushroomFront), ("mushroom_front", .mushroomFront),
   ("onLeaf", .onLeaf), ("on_leaf", .onLeaf)]

def command? (s : String) : Option Command :=
  (commandNames.find? fun e => e.1 == s).map Prod.snd

def sensor? (s : String) : Option Detector :=
  (sensorNames.find? fun e => e.1 == s).map Prod.snd

end Script

end Ladybug
