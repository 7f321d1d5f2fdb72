/-
This file holds the records of an object module and writes them.
-/

import SicXe.Numeral.Hex

namespace SicXe

inductive Record where
  | header (name : Text) (start length : Int)
  | define (symbols : List (Text × Int))
  | refer (names : List Text)
  | text (start : Int) (code : Text)
  | modification (location width : Int) (symbol : Text)
  | finish (address : Option Int)
  deriving DecidableEq, Repr

namespace Record

open Numeral

def tag : Record → Char
  | header .. => 'H'
  | define _ => 'D'
  | refer _ => 'R'
  | text .. => 'T'
  | modification .. => 'M'
  | finish _ => 'E'

/-- The bytes of object code, two digits each. -/
def byteCount (code : Text) : Nat :=
  code.length / 2

def body : Record → Text
  | header name start length => name ++ ' ' :: Hex.field 6 start ++ Hex.field 6 length
  | define symbols => symbols.flatMap fun (name, address) => name ++ Hex.field 6 address
  | refer names => names.flatten
  | text start code => Hex.field 6 start ++ Hex.field 2 (byteCount code) ++ code
  | modification location width symbol => Hex.field 6 location ++ Hex.field 2 width ++ symbol
  | finish address => address.elim [] (Hex.field 6)

def line (record : Record) : Text :=
  record.tag :: record.body

def isFinish : Record → Bool
  | finish _ => true
  | _ => false

end Record

end SicXe
