import ShellTemplate.Value.Basic

/-!
# Equality of values and dictionaries

Values are equal across number types when they denote the same number: `1`, `1.0`, `True` and the
decimal `1.00` are one key. Collections are equal item by item, dictionaries whatever the order of
their entries, a byte string and a byte array of the same bytes, ranges with the same items. No NaN
equals anything.

* `Value.same` — equality.
* `Value.unhashable?` — the value that keeps a key out of a dictionary.
* `Dict.find?`, `Dict.put` — look-up and update; an update keeps the place of its entry.
-/

namespace ShellTemplate

open Number

/-- What decides whether two numbers are equal. -/
inductive Quantity where
  | finite (numeral : Numeral)
  | infinite (negative : Bool)
deriving DecidableEq, Repr

/-- The quantity of a whole number. -/
def Quantity.ofInt (n : Int) : Quantity := .finite (Numeral.canonical ⟨decide (n < 0), n.natAbs, 0⟩)

/-- The quantity that a number denotes; a NaN and what is no number have none. -/
def Value.quantity? : Value → Option Quantity
  | .bool b => some (.ofInt (if b then 1 else 0))
  | .int n => some (.ofInt n)
  | .float (.finite negative m e) => some (.finite (Binary64.numeral negative m e).canonical)
  | .float (.infinite negative) => some (.infinite negative)
  | .decimal (.finite n) => some (.finite n.canonical)
  | .decimal (.infinite negative) => some (.infinite negative)
  | _ => none

/-- How many items a range has. -/
def rangeLength (start stop step : Int) : Nat :=
  if 0 < step then (if start < stop then ((stop - start - 1) / step + 1).toNat else 0)
  else if step < 0 then (if stop < start then ((start - stop - 1) / -step + 1).toNat else 0)
  else 0

/-- Ranges are equal when they have the same items. -/
def rangeSame (start stop step start' stop' step' : Int) : Bool :=
  let length := rangeLength start stop step
  length == rangeLength start' stop' step' &&
    (length == 0 || (start == start' && (length == 1 || step == step')))

mutual

/-- Equality of values. -/
def Value.same : Value → Value → Bool
  | .null, .null => true
  | .str s, .str t => s == t
  | .bytes bs, .bytes cs | .bytes bs, .bytearray cs => bs == cs
  | .bytearray bs, .bytes cs | .bytearray bs, .bytearray cs => bs == cs
  | .list xs, .list ys => Value.sameItems xs ys
  | .tuple xs, .tuple ys => Value.sameItems xs ys
  | .set xs, .set ys => xs.length == ys.length && Value.sameItems xs ys
  | .range start stop step, .range start' stop' step' =>
    rangeSame start stop step start' stop' step'
  | .dict es, .dict fs => es.length == fs.length && Value.sameEntries es fs
  | .atom a, .atom b => a == b
  | .part p, .part q => p == q
  | .context c, .context d => c.same d
  | .timestamp s, .timestamp t => s == t
  | .bottomless, .bottomless | .undefined, .undefined => true
  | x, y =>
    match x.quantity?, y.quantity? with
    | some q, some r => q == r
    | _, _ => false
termination_by structural v => v

/-- Equality of lists of values, item by item. -/
def Value.sameItems : List Value → List Value → Bool
  | [], [] => true
  | x :: xs, y :: ys => x.same y && Value.sameItems xs ys
  | _, _ => false
termination_by structural items => items

/-- Whether every entry of the first dictionary is an entry of the second. -/
def Value.sameEntries : List (Value × Value) → List (Value × Value) → Bool
  | [], _ => true
  | (key, value) :: rest, others =>
    others.any (fun other => key.same other.1 && value.same other.2) &&
      Value.sameEntries rest others
termination_by structural entries => entries

/-- Equality of contexts: the same kind over equal values. A chain and a context of the caller's own
equal nothing but themselves, and two that were made apart are never the same one. -/
def Context.same : Context → Context → Bool
  | .mapping v, .mapping w => v.same w
  | .frame v, .frame w => v.same w
  | .sequence v, .sequence w => v.same w
  | _, _ => false
termination_by structural c => c

end

mutual

/-- The value that keeps a key out of a dictionary, if there is one: a list, a set, a dictionary or
a byte array, also inside a tuple or a context, or a signaling NaN. -/
def Value.unhashable? : Value → Option Value
  | .list items => some (.list items)
  | .bottomless => some .bottomless
  | .set items => some (.set items)
  | .dict entries => some (.dict entries)
  | .bytearray bs => some (.bytearray bs)
  | .tuple items => Value.unhashableItem? items
  | .context (.mapping values) | .context (.frame values) | .context (.sequence values) =>
    values.unhashable?
  | .decimal (.nan negative true payload) => some (.decimal (.nan negative true payload))
  | _ => none
termination_by structural v => v

/-- The first value inside a list of values that keeps a key out of a dictionary. -/
def Value.unhashableItem? : List Value → Option Value
  | [] => none
  | item :: rest => item.unhashable? <|> Value.unhashableItem? rest
termination_by structural items => items

end

namespace Dict

/-- The value under a key. -/
def find? (entries : List (Value × Value)) (key : Value) : Option Value :=
  (entries.find? fun entry => entry.1.same key).map Prod.snd

/-- Puts a value under a key. A key that is there keeps its place and its spelling. -/
def put : List (Value × Value) → Value → Value → List (Value × Value)
  | [], key, value => [(key, value)]
  | (key', value') :: rest, key, value =>
    if key'.same key then (key', value) :: rest else (key', value') :: put rest key value

/-- The dictionary of a list of pairs; of equal keys the last value counts. -/
def ofPairs (pairs : List (Value × Value)) : List (Value × Value) :=
  pairs.foldl (fun entries pair => put entries pair.1 pair.2) []

/-- The entries of the first dictionary overridden and extended by those of the second. -/
def union (entries others : List (Value × Value)) : List (Value × Value) :=
  others.foldl (fun entries pair => put entries pair.1 pair.2) entries

/-- The dictionary of named values. -/
def ofNamed (named : List (String × Value)) : List (Value × Value) :=
  ofPairs (named.map fun (name, value) => (.str name, value))

end Dict

end ShellTemplate
