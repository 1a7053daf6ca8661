import DueTasks.Files.FileSystem
import DueTasks.Text.Numeral

/-! Archives of files in the tar format.
An archive is a row of blocks. A block with the header of an entry comes before the blocks that
its bytes fill. A name that is too long for the header has an entry of its own before the one it
names.
-/

namespace DueTasks

/-- The header of an entry. -/
structure ArchiveHeader where
  path : List UInt8
  kind : Char
  size : Nat
  executable : Bool
  target : List UInt8

/-- The names of the next entry that are too long for its header. -/
structure LongNames where
  path? : Option (List UInt8)
  target? : Option (List UInt8)

structure ArchiveEntry where
  path : List UInt8
  node : FileNode

namespace Archive

/-- The number of bytes of a block. -/
def blockSize : Nat := 512

/-- The bytes of a field in a block, up to the first zero byte. -/
def field (block : List UInt8) (start size : Nat) : List UInt8 :=
  ((block.drop start).take size).takeWhile (· ≠ 0)

/-- The number that a field in a block spells in octal digits. -/
def number? (block : List UInt8) (start size : Nat) : Option Nat :=
  Text.numeral? 8 ((Text.ofUtf8Lossy (field block start size)).toList.filter (· ≠ ' '))

/-- The header in a block, if it has one. -/
def header? (block : List UInt8) : Option ArchiveHeader := do
  if field block 257 5 ≠ Text.toUtf8 "ustar" then failure
  let leading := field block 345 155
  let name := field block 0 100
  let mode ← number? block 100 8
  return {
    path := if leading.isEmpty then name else leading ++ Text.toUtf8 "/" ++ name
    kind := Char.ofNat ((block.getD 156 0).toNat)
    size := ← number? block 124 12
    executable := mode / 64 % 2 = 1
    target := field block 157 100 }

/-- The entries of an archive, if it is well formed. Entries of other kinds, such as hard
links, are left out.
-/
def entries? (long : LongNames) (bytes : List UInt8) : Option (List ArchiveEntry) := do
  if _ : bytes.length < blockSize then
    if bytes.isEmpty then return [] else failure
  else if (bytes.take blockSize).all (· == 0) then return []
  else
    let header ← header? (bytes.take blockSize)
    let body := bytes.drop blockSize
    if body.length < header.size then failure
    let content := body.take header.size
    let rest := body.drop ((header.size + blockSize - 1) / blockSize * blockSize)
    let path := long.path?.getD header.path
    let followed (node : FileNode) : Option (List ArchiveEntry) := do
      return ⟨path, node⟩ :: (← entries? ⟨none, none⟩ rest)
    match header.kind with
    | '0' | '\x00' => followed (.file content header.executable)
    | '5' => followed (.directory [])
    | '2' => followed (.link (Text.ofUtf8Lossy (long.target?.getD header.target)))
    | '3' | '4' | '6' => followed .special
    | 'L' => entries? { long with path? := some (content.takeWhile (· ≠ 0)) } rest
    | 'K' => entries? { long with target? := some (content.takeWhile (· ≠ 0)) } rest
    | 'x' => failure
    | _ => entries? ⟨none, none⟩ rest
termination_by bytes.length
decreasing_by
  all_goals
    simp only [List.length_drop]
    unfold blockSize at *
    omega

end Archive

/-- The disk with an entry of an archive put below the working directory. -/
def Disk.unpack (disk : Disk) (entry : ArchiveEntry) : Disk :=
  let slash : UInt8 := 0x2f
  let reversed := entry.path.reverse.dropWhile (· == slash)
  let name := (reversed.takeWhile (· ≠ slash)).reverse
  let directory : Path := ⟨Text.ofUtf8Lossy (reversed.drop name.length).reverse⟩
  match entry.node, Text.ofUtf8? name with
  | .directory _, some text => disk.makeDirectory (directory.join text)
  | node, some text => disk.putNamed directory (.text text) node
  | node, none => disk.putNamed directory (.undecodable name) node

/-- The disk with the entries of an archive put below the working directory. -/
def Disk.unpackAll? (disk : Disk) (archive : List UInt8) : Option Disk :=
  (Archive.entries? ⟨none, none⟩ archive).map fun entries => entries.foldl Disk.unpack disk

end DueTasks
