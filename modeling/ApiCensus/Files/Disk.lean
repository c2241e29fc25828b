import ApiCensus.Files.Tree

/-!
# What a program sees of the disk

A program asks the disk whether a path leads to something and what a file holds,
and it writes files.  Paths lead to files, several of them possibly to the same
one.  Writing either fails and changes nothing, or it gives one file a new content
and leaves all others alone.  A tree of files is such a disk.
-/

namespace ApiCensus.Files

/-- A disk. -/
structure Disk where
  /-- What the disk looks like at some time. -/
  State : Type
  /-- The files that there are or may come to be. -/
  File : Type
  /-- The content of a file, if there is one. -/
  content? : State → File → Option (List UInt8)
  /-- The file that a path leads to, whether or not it is there yet. -/
  locate : State → Path → Except Problem File
  /-- Whether a path leads to something. -/
  exists? : State → Path → Except Problem Bool
  /-- The content of the file that a path leads to. -/
  read : State → Path → Except Problem (List UInt8)
  /-- The disk after writing a file. -/
  write : State → Path → List UInt8 → Except Problem State
  content_of_read : ∀ {state path content}, read state path = .ok content →
    ∃ file, locate state path = .ok file ∧ content? state file = some content
  content_of_write : ∀ {state path content after}, write state path content = .ok after →
    ∃ file, locate state path = .ok file ∧ content? after file = some content ∧
      ∀ other, other ≠ file → content? after other = content? state other

namespace Tree

theorem content_of_read {tree : Tree} {path : Path} {content : List UInt8}
    (readOk : tree.read path = .ok content) :
    ∃ location, tree.locate path = .ok location ∧ tree.file? location = some content := by
  unfold read at readOk
  split at readOk
  · cases readOk
  · rename_i location located
    split at readOk
    · cases readOk
    · split at readOk
      · rename_i found
        cases readOk
        exact ⟨location, located, found⟩
      · cases readOk

theorem content_of_write {tree after : Tree} {path : Path} {content : List UInt8}
    (written : tree.write path content = .ok after) :
    ∃ location, tree.locate path = .ok location ∧ after.file? location = some content ∧
      ∀ other, other ≠ location → after.file? other = tree.file? other := by
  unfold write at written
  split at written
  · cases written
  · rename_i location located
    split at written
    · cases written
    · cases written
      refine ⟨location, located, ?_, ?_⟩
      · exact (lookup_setFile location location content tree.files).trans (if_pos rfl)
      · intro other different
        exact (lookup_setFile location other content tree.files).trans (if_neg different)

/-- The files that are new or have another content than before. -/
def changes (before after : Tree) : List (Location × List UInt8) :=
  after.files.filter fun (location, content) => before.file? location != some content

end Tree

/-- Trees of files as the states of a disk. -/
def treeDisk : Disk where
  State := Tree
  File := Location
  content? := Tree.file?
  locate := Tree.locate
  exists? := Tree.exists?
  read := Tree.read
  write := Tree.write
  content_of_read := Tree.content_of_read
  content_of_write := Tree.content_of_write

end ApiCensus.Files
