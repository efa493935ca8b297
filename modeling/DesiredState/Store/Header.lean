import DesiredState.File.Tree

/-!
# What a file looks like from the outside

Before a file is taken for a state file, its first bytes are looked at. A file with fewer than two
bytes is blank. One that starts like a state file may still have nothing sensible behind that, or
be prepared for a store without holding one. Bytes behind the end of a file count as zero.
-/

namespace DesiredState

inductive FileForm where
  /-- There is nothing in it, so it can become a state file. -/
  | blank
  /-- It is prepared for a store. -/
  | prepared
  | holding (content : Store)
  /-- It starts like a state file but makes no sense. -/
  | damaged
  /-- It is something else. -/
  | foreign
  deriving DecidableEq

namespace FileForm

def bytesOf (text : String) : List UInt8 := text.toList.flatMap String.utf8EncodeChar

def byteAt (bytes : List UInt8) (position : Nat) : Nat := (bytes[position]?.getD 0).toNat

/-- The number in a row of bytes, the most significant first. -/
def numberAt (bytes : List UInt8) (position count : Nat) : Nat :=
  (List.range count).foldl (fun number i => 256 * number + byteAt bytes (position + i)) 0

/-- The text with which state files start. -/
def signature : String := "SQLite format 3\x00"

def pageSize (bytes : List UInt8) : Nat := 256 * byteAt bytes 16 + 65536 * byteAt bytes 17

def pageSizes : List Nat := [512, 1024, 2048, 4096, 8192, 16384, 32768, 65536]

/-- The fewest bytes of a page that have to be in use. -/
def leastUsed : Nat := 480

/-- Whether the first bytes are those of a state file. -/
def isSigned (bytes : List UInt8) : Bool :=
  (bytesOf signature).isPrefixOf bytes &&
    byteAt bytes 19 ≤ 2 && [byteAt bytes 21, byteAt bytes 22, byteAt bytes 23] = [64, 32, 32] &&
    pageSizes.contains (pageSize bytes) && leastUsed + byteAt bytes 20 ≤ pageSize bytes

def pageCount (bytes : List UInt8) : Nat :=
  (bytes.length + pageSize bytes - 1) / pageSize bytes

/-- The number of pages that a file says it has. It is out of date, and does not count, when it
was not written together with the last change. -/
def claimedPages (bytes : List UInt8) : Nat :=
  if numberAt bytes 28 4 = 0 ∨ numberAt bytes 24 4 ≠ numberAt bytes 92 4 then pageCount bytes
  else numberAt bytes 28 4

def entryPage : Nat := 13

def hasNoTables (bytes : List UInt8) : Bool :=
  let used := pageSize bytes - byteAt bytes 20
  let start := if numberAt bytes 105 2 = 0 then 65536 else numberAt bytes 105 2
  byteAt bytes 100 = entryPage && numberAt bytes 101 2 = 0 && numberAt bytes 103 2 = 0 &&
    108 ≤ start && start + byteAt bytes 107 ≤ used && numberAt bytes 44 4 ≤ 4

def ofBytes (bytes : List UInt8) : FileForm :=
  if bytes.length < 2 then .blank
  else if ¬ isSigned bytes then .foreign
  else if pageCount bytes < claimedPages bytes then .damaged
  else if hasNoTables bytes then .prepared
  else .damaged

def ofContent : FileContent → FileForm
  | .text content => ofBytes (bytesOf content)
  | .store content => .holding content
  | .changes _ | .index => .foreign

end FileForm

end DesiredState
