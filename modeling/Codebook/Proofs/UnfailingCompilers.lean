/-
This file says that nothing in a dictionary file stops its compiler. Whatever the bytes of the file
and whatever has been compiled and reported before, every access to a node, a cluster, a word or a
range of bytes is to one that is there, and the only thing that can end the compilation is a
physical line that is not UTF-8. Main statement: this holds for the three compilers, and the actor
dictionary that comes out of one file can be what is compiled before the next
(`compilers_unfailing`).
-/

import Codebook.Proofs.CheckedActors
import Codebook.Proofs.CheckedAgents
import Codebook.Proofs.CheckedVerbs

namespace Codebook

open PhysicalLine (linesOfBytes)

/-- The three compilers come to what they come to without checks, and fail exactly at a line that is
reached and not UTF-8: verbs and agents reach every line, actors those that are not behind a stop
marker. The actor dictionary that is compiled into has to have all that it names by number, and so
has the one that comes out. -/
theorem compilers_unfailing {earlier : ActorDictionary} (inRange : earlier.IsInRange)
    (keepRoots : Bool) (reported : Array Diagnostic) (file : String) (bytes : ByteArray) :
    IsCompiled (fun _ => false) file bytes reported
        (VerbDictionary.compileChecked reported file (linesOfBytes bytes))
        (VerbDictionary.compile file (.ofLines (linesOfBytes bytes))) ∧
      IsCompiled Script.isStop file bytes reported
        (ActorDictionary.compileChecked keepRoots earlier reported file (linesOfBytes bytes))
        (earlier.compileInto keepRoots file (.ofLines (linesOfBytes bytes))) ∧
      (earlier.compileInto keepRoots file (.ofLines (linesOfBytes bytes))).dictionary.IsInRange ∧
      IsCompiled (fun _ => false) file bytes reported
        (AgentDictionary.compileChecked reported file (linesOfBytes bytes))
        (AgentDictionary.compile file (.ofLines (linesOfBytes bytes))) := by
  refine ⟨?verbs, ?actors, inRange.compileInto keepRoots file _, ?agents⟩
  case verbs =>
    refine isCompiled_of_unfailing file (VerbDictionary.compileChecked_eq reported file _) ?_
    rw [Script.cutAt_never]
    rfl
  case actors =>
    exact isCompiled_of_unfailing file
      (ActorDictionary.compileChecked_eq keepRoots inRange reported file _) rfl
  case agents =>
    refine isCompiled_of_unfailing file (AgentDictionary.compileChecked_eq reported file _) ?_
    rw [Script.cutAt_never]
    rfl

/-- An actor dictionary with one phrase and its cluster. -/
def kabulActors : ActorDictionary :=
  ⟨Trie.empty.insert [.root "KABUL"] 0, #[⟨[⟨.always, "AFG"⟩], none⟩]⟩

theorem isInRange_kabulActors : kabulActors.IsInRange :=
  (ActorDictionary.isInRange_empty.withClusters (Nat.zero_le _)).insert _ Nat.zero_lt_one

/-- A stop marker, and behind it a line that is not UTF-8. -/
def stoppedBytes : ByteArray :=
  ⟨#[45, 45, 45, 83, 84, 79, 80, 45, 45, 45, 10, 255, 10]⟩

/-- For actors the line is not reached, and for verbs it is. -/
theorem stoppedBytes_compiled :
    kabulActors.IsInRange ∧
      ActorDictionary.compileChecked true kabulActors #[] "file" (linesOfBytes stoppedBytes) =
        .ok ⟨kabulActors, #[], none⟩ ∧
      FailsAfter (fun _ => false) stoppedBytes 1 := by
  obtain ⟨verbs, actors, -, -⟩ :=
    compilers_unfailing isInRange_kabulActors true #[] "file" stoppedBytes
  refine ⟨isInRange_kabulActors, ?_, ?_⟩
  · rw [actors.unfailing]
    decide +kernel
  · obtain ⟨count, fails, same⟩ := (verbs.fails_iff (.cannotRead "file" 1 .notText)).mp (by
      decide +kernel)
    obtain ⟨-, rfl, -⟩ := Failure.cannotRead.inj same
    exact fails

end Codebook
