import Ladybug.Datum

/-!
# Data as keys and as members

Numbers that are equal are one key, whether they have a point or not, and a truth value is the
number one or zero.

* `Datum.isScalar`   what may be a key
* `Datum.sameKey`    two data are one key
* `insertKey`        one more entry of a table; a key that is there keeps its place
* `inPlaces`         the members of a set in the order in which the set shows them
-/

namespace Ladybug.Datum
open Ladybug

def isScalar : Datum → Bool
  | .null | .bool _ | .int _ | .float _ | .text _ | .bytes _ | .date _ | .instant _ => true
  | _ => false

/-- the value of a number without a fraction -/
def whole? : Datum → Option Int
  | .int i => some i
  | .bool b => some (if b then 1 else 0)
  | .float x => if x.isIntegral then x.toInt? else none
  | _ => none

def sameKey : Datum → Datum → Bool
  | .null, .null => true
  | .text s, .text t => s == t
  | .bytes bs, .bytes cs => bs == cs
  | .date a, .date b => a == b
  | .instant i, .instant j => i.isSame j
  | a, b =>
    match a.whole?, b.whole? with
    | some i, some j => i == j
    | none, none =>
      match a, b with
      | .float x, .float y => x == y
      | _, _ => false
    | _, _ => false

/-- Entries with one more: a new key comes last, a known one gets a new value in its old place. -/
def insertKey {α : Type} (entries : List (Datum × α)) (key : Datum) (value : α) :
    List (Datum × α) :=
  match entries with
  | [] => [(key, value)]
  | e :: es => if e.1.sameKey key then (e.1, value) :: es else e :: insertKey es key value

/-! ### the order of a set

A set of numbers keeps each of them in one of the places of a row, which is a power of two long. A
number goes to the place that its remainder names or, where that is taken, to another one. -/

/-- what remainders of numbers are taken from first: a prime below a word -/
def residuePrime : Nat := Nat.pow 2 61 - 1

def residue (negative : Bool) (n : Nat) : Int :=
  let r := Int.ofNat (n % residuePrime)
  if !negative then r else if r = 1 then -2 else -r

/-- The remainder of a number; halves count as their inverse for the prime. -/
def residue? : Datum → Option Int
  | .float (.finite negative m e) =>
    some (residue negative (m * Nat.pow 2 (e % 61).toNat))
  | .float (.infinite negative) => some (if negative then -314159 else 314159)
  | d => d.whole?.map fun i => residue (i < 0) i.natAbs

/-- The places of a row for some members: more than twice as many if they are five or more. -/
def rowLength (members : Nat) : Nat :=
  if members < 5 then 8 else Nat.pow 2 ((2 * members).log2 + 1)

/-- how many neighbours of a place are tried before a place further away -/
def neighbours (length place : Nat) : Nat := if place + 9 < length then 9 else 0

/-- The first place that is free, `place` being tried first. -/
def freePlace (length : Nat) (taken : List Nat) : (tries rest place : Nat) → Nat
  | 0, _, place => place
  | tries + 1, rest, place =>
    let near := (List.range (neighbours length place + 1)).map (place + ·)
    match near.find? fun p => !taken.contains p with
    | some p => p
    | none =>
      let rest := rest / 32
      freePlace length taken tries rest ((place * 5 + 1 + rest) % length)

/-- The members with their places. -/
def places (length : Nat) (placed : List (Nat × Datum)) : List (Int × Datum) → List (Nat × Datum)
  | [] => placed
  | (r, d) :: ms =>
    let p := freePlace length (placed.map Prod.fst) (length + 16)
      (r % Int.ofNat (Nat.pow 2 64)).toNat (r % Int.ofNat length).toNat
    places length ((p, d) :: placed) ms

/-- Numbers in the order of their places; members of which some are no numbers as they came. -/
def inPlaces (members : List Datum) : List Datum :=
  match members.mapM fun d => d.residue?.map fun r => (r, d) with
  | none => members
  | some ms =>
    ((places (rowLength members.length) [] ms).mergeSort fun a b => a.1 ≤ b.1).map Prod.snd

end Ladybug.Datum
