import Sift.Unicode.Property
import Sift.Unicode.Lowercase
import Sift.Pattern.CaseRanges

/-!
# Character classes

A class holds ranges and categories, may be negated as a whole, and may have another class taken
away from it. Membership asks the ranges first and then the categories in the order they were
written: the first category that settles the question does so.
-/

namespace Sift.Pattern

/-- A named set of code points, or its complement. -/
structure Category where
  name : String
  ranges : Unicode.Ranges
  negated : Bool
  deriving DecidableEq

namespace Category

/-- Word characters. -/
def word (negated : Bool) : Category := ⟨"word", [], negated⟩

/-- White space. -/
def space (negated : Bool) : Category := ⟨"space", [], negated⟩

/-- Decimal digits. -/
def digit (negated : Bool) : Category := ⟨"Nd", Unicode.decimalDigitRanges, negated⟩

/-- Whether `c` is in the set the category names, leaving its negation aside. -/
def names (category : Category) (c : Nat) : Bool :=
  if category.name = "word" then Unicode.isWord c
  else if category.name = "space" then Unicode.isSpace c
  else if category.name = "Nd" && c < 128 then 48 ≤ c && c ≤ 57
  else category.ranges.contains c

/-- Membership decided by the first category that names `c` or is negated and does not. -/
def admits (c : Nat) : List Category → Bool
  | [] => false
  | category :: rest =>
    if category.names c then !category.negated
    else if category.negated then true
    else admits c rest

end Category

/-- A class without the class taken away from it. -/
structure Layer where
  ranges : Unicode.Ranges := []
  categories : List Category := []
  negated : Bool := false
  /-- Two opposite categories were joined, so that everything is in. -/
  full : Bool := false
  deriving DecidableEq

namespace Layer

/-- Membership in the layer. -/
def contains (layer : Layer) (c : Nat) : Bool :=
  (layer.ranges.contains c || Category.admits c layer.categories) != layer.negated

/-- All code points. -/
def everything : Unicode.Ranges := [(0, 0x10FFFF)]

/-- Joins ranges that overlap or touch, given in ascending order. -/
def joinRanges : Nat × Nat → Unicode.Ranges → Unicode.Ranges
  | last, [] => [last]
  | last, range :: rest =>
    if range.1 ≤ last.2 + 1 then joinRanges (last.1, max last.2 range.2) rest
    else last :: joinRanges range rest

/-- Ranges in ascending order, disjoint and not touching. -/
def canonical (ranges : Unicode.Ranges) : Unicode.Ranges :=
  match ranges.mergeSort (fun a b => a.1 ≤ b.1) with
  | [] => []
  | range :: rest => joinRanges range rest

/-- Adds ranges. -/
def addRanges (layer : Layer) (ranges : Unicode.Ranges) : Layer :=
  if layer.full then layer else { layer with ranges := canonical (layer.ranges ++ ranges) }

/-- Adds the code points from `first` to `last`. -/
def addRange (layer : Layer) (first last : Nat) : Layer :=
  layer.addRanges [(first, last)]

/-- The layer with everything in it before negation. -/
def fill (layer : Layer) : Layer :=
  { layer with full := true, categories := [], ranges := everything }

/-- Adds a category; a category beside its own complement fills the layer. -/
def addCategory (layer : Layer) (category : Category) : Layer :=
  if layer.full then layer
  else
    match layer.categories.find? fun other => other.name == category.name with
    | none => { layer with categories := layer.categories ++ [category] }
    | some other => if other.negated == category.negated then layer else layer.fill

/-- Adds a named set. Where case is ignored the three cased categories are one. -/
def addNamed (layer : Layer) (name : String) (ranges : Unicode.Ranges) (negated ignoreCase : Bool) :
    Layer :=
  if ignoreCase && (name = "Ll" || name = "Lu" || name = "Lt") then
    ["Ll", "Lu", "Lt"].foldl (fun (acc : Layer) cased =>
      acc.addCategory ⟨cased, Unicode.categoryRanges cased, negated⟩) layer
  else layer.addCategory ⟨name, ranges, negated⟩

/-- Joins two layers that are not negated. -/
def union (layer other : Layer) : Layer :=
  if layer.full then layer
  else if other.full then layer.fill
  else other.categories.foldl addCategory (layer.addRanges other.ranges)

/-- Prepares a layer for text in lower case: a single code point is lowered, a longer range is
joined by its lower-case counterparts. -/
def lowered (layer : Layer) : Layer :=
  if layer.full then layer
  else
    let singles := layer.ranges.map fun range =>
      if range.1 == range.2 then (Unicode.toLower range.1, Unicode.toLower range.1) else range
    let extra := layer.ranges.flatMap fun range =>
      if range.1 == range.2 then [] else lowercaseCounterparts range.1 range.2
    { layer with ranges := canonical (singles ++ extra) }

end Layer

/-- A character class: a layer, less the class that the remaining layers form. -/
structure CharClass where
  layer : Layer
  without : List Layer := []
  deriving DecidableEq

namespace CharClass

/-- Membership in a chain of layers, each less those after it. -/
def chainContains (c : Nat) : List Layer → Bool
  | [] => false
  | layer :: rest => layer.contains c && !chainContains c rest

/-- Membership. -/
def contains (cls : CharClass) (c : Nat) : Bool :=
  chainContains c (cls.layer :: cls.without)

/-- The class of one category. -/
def ofCategory (category : Category) : CharClass := ⟨{ categories := [category] }, []⟩

/-- The class of everything outside one category. -/
def outsideCategory (category : Category) : CharClass :=
  ⟨{ categories := [category], negated := true }, []⟩

/-- The class of all code points. -/
def any : CharClass := ⟨{ ranges := Layer.everything }, []⟩

/-- The class of one code point. -/
def single (c : Nat) : CharClass := ⟨{ ranges := [(c, c)] }, []⟩

/-- Whether the class may be joined with another one. -/
def joinable (cls : CharClass) : Bool := !cls.layer.negated && cls.without.isEmpty

/-- Joins two joinable classes. -/
def union (cls other : CharClass) : CharClass := { cls with layer := cls.layer.union other.layer }

/-- The only code point of the ranges, when there is one and there are no categories. -/
def soleCode? (cls : CharClass) : Option Nat :=
  match cls.layer.ranges, cls.layer.categories, cls.without with
  | [(first, last)], [], [] => if first == last then some first else none
  | _, _, _ => none

end CharClass

end Sift.Pattern
