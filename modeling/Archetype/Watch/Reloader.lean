import Archetype.Bytes.Digest
import Archetype.Classifier

/-!
Keeping a classifier up to date with its rule file. Contents that were reported before are known by
their digest and are not read again; a file that gives no tree leaves the classifier as it was.
-/

namespace Archetype.Watch

structure Reloader where
  classifier : Classifier
  /-- The digest of the contents that were reported last. -/
  lastDigest : Option String := none

/-- What came of a reload. -/
inductive Outcome where
  /-- The file cannot be read. -/
  | unreadable
  /-- The contents are those that were reported last. -/
  | unchanged
  | published
  /-- The rules are faulty; this is reported, and the tree in use stays. -/
  | refused (fault : RuleTree.Fault)
  /-- The path is none, or the contents are no rules at all; this is not reported, and ends the
  reload. -/
  | escaped (fault : LoadFault)
deriving DecidableEq, Repr

/-- What is reported of a reload: no fault, or that of the rules. -/
def Outcome.report? : Outcome → Option (Option RuleTree.Fault)
  | .published => some none
  | .refused fault => some (some fault)
  | .unreadable | .unchanged | .escaped _ => none

namespace Reloader

/-- Reads the rule file if its contents are new, given what reading the file yields. -/
def reload (reloader : Reloader) (contents : Except FileFault Bytes) : Outcome × Reloader :=
  match contents with
  | .error fault =>
    (if fault.isOfPath then .escaped (.file fault) else .unreadable, reloader)
  | .ok bytes =>
    let digest := Bytes.digest bytes
    if reloader.lastDigest = some digest then
      (.unchanged, reloader)
    else
      match reloader.classifier.load contents with
      | .ok classifier => (.published, ⟨classifier, some digest⟩)
      | .error (.tree fault) =>
        if fault.isRuleFault then
          (.refused fault, { reloader with lastDigest := some digest })
        else
          (.escaped (.tree fault), reloader)
      | .error fault => (.escaped fault, reloader)

end Reloader

end Archetype.Watch
