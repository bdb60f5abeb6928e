import ShellTemplate.Error
import ShellTemplate.Value.Equality

/-!
# Items of values

Going through the items of a value, counting them, and picking one by a key or a position. Positions
below zero count from the end.

* `Value.items` — the items of anything that has items.
* `Value.listItems?` — the items of what counts as a list in a template.
* `Value.subscript` — the item under a key or at a position.
-/

namespace ShellTemplate

/-- The items of a range. -/
def rangeItems (start stop step : Int) : List Value :=
  (List.range (rangeLength start stop step)).map fun (i : Nat) => .int (start + i * step)

/-- The bytes of a byte string as whole numbers. -/
def byteItems (bs : List UInt8) : List Value := bs.map fun b => .int b.toNat

/-- The items of a value: of a dictionary the keys, of a text the characters. -/
def Value.items : Value → Except Error (List Value)
  | .list xs | .tuple xs | .set xs => .ok xs
  | .bottomless => .ok [.bottomless]
  | .dict entries => .ok (entries.map Prod.fst)
  | .str s => .ok (s.toList.map fun c => .str (String.singleton c))
  | .bytes bs | .bytearray bs => .ok (byteItems bs)
  | .range start stop step => .ok (rangeItems start stop step)
  | v => .error (.notIterable v.typeName)

/-- The items of a list, a tuple or a range; nothing else is a list for a placeholder. -/
def Value.listItems? : Value → Option (List Value)
  | .list xs | .tuple xs => some xs
  | .bottomless => some [.bottomless]
  | .range start stop step => some (rangeItems start stop step)
  | _ => none

/-- The greatest index and length. -/
def maxIndex : Int := 9223372036854775807

/-- The number of items of a value. -/
def Value.length : Value → Except Error Nat
  | .list xs | .tuple xs | .set xs => .ok xs.length
  | .bottomless => .ok 1
  | .dict entries => .ok entries.length
  | .str s => .ok s.length
  | .bytes bs | .bytearray bs => .ok bs.length
  | .range start stop step =>
    let n := rangeLength start stop step
    if maxIndex < n then .error .lengthTooLarge else .ok n
  | v => .error (.noLength v.typeName)

/-- The position that an index stands for among so many items. -/
def position? (length : Nat) (i : Int) : Option Nat :=
  if 0 ≤ i then (if i < length then some i.toNat else none)
  else if 0 ≤ i + length then some (i + length).toNat
  else none

/-- The item of a list at an index. -/
def pick (container : Value) (items : List Value) (i : Int) : Except Error Value :=
  if i < -maxIndex - 1 ∨ maxIndex < i then .error .indexTooLarge
  else match (position? items.length i).bind (items[·]?) with
    | some item => .ok item
    | none => .error (.indexOutOfRange container.typeName)

/-- The index that a value is; a truth value is zero or one. -/
def Value.index? : Value → Option Int
  | .int n => some n
  | .bool b => some (if b then 1 else 0)
  | _ => none

/-- The item under a key of a dictionary, or at a position of a sequence. -/
def Value.subscript (container key : Value) : Except Error Value :=
  match container with
  | .dict entries =>
    match key.unhashable? with
    | some v => .error (.unhashable v)
    | none =>
      match Dict.find? entries key with
      | some value => .ok value
      | none => .error (.missingKey key)
  | .list xs | .tuple xs => atIndex fun i => pick container xs i
  | .bottomless => atIndex fun i => pick container [.bottomless] i
  | .str s => atIndex fun i => pick container (s.toList.map fun c => .str (String.singleton c)) i
  | .bytes bs | .bytearray bs => atIndex fun i => pick container (byteItems bs) i
  | .range start stop step => atIndex fun i =>
    match position? (rangeLength start stop step) i with
    | some n => .ok (.int (start + n * step))
    | none => .error (.indexOutOfRange container.typeName)
  | _ => .error (.notSubscriptable container.typeName)
where
  atIndex (pickAt : Int → Except Error Value) : Except Error Value :=
    match key.index? with
    | some i => pickAt i
    | none => .error (.badSubscript container.typeName key.typeName)

/-- The dictionary of a list of pairs, unless a key cannot be one. -/
def Value.dictOfPairs (pairs : List (Value × Value)) : Except Error Value :=
  match Value.unhashableItem? (pairs.map Prod.fst) with
  | some v => .error (.unhashable v)
  | none => .ok (.dict (Dict.ofPairs pairs))

/-- The set of some values, unless one of them cannot be in a set. -/
def Value.setOfItems (items : List Value) : Except Error Value :=
  match Value.unhashableItem? items with
  | some v => .error (.unhashable v)
  | none => .ok (.set items)

/-- The range of a start, a stop and a step, which is not zero. -/
def Value.rangeOf (start stop step : Int) : Except Error Value :=
  if step = 0 then .error .zeroStep else .ok (.range start stop step)

end ShellTemplate
