import Archetype.Bytes.Encoding
import Archetype.Host
import Archetype.RuleTree

/-!
A classifier holds the rule tree that was read last. A text that gives no tree leaves it as it was.
-/

namespace Archetype

structure Classifier where
  format : Outline.Format := {}
  /-- The encoding of rule files. -/
  encoding : String := "utf-8"
  tree : Option RuleTree := none
deriving Inhabited

/-- Why a rule file gives no rule tree. -/
inductive LoadFault where
  | file (fault : FileFault)
  | text (fault : Bytes.TextFault)
  | tree (fault : RuleTree.Fault)
deriving DecidableEq, Repr

def LoadFault.message : LoadFault → String
  | .file fault => fault.message
  | .text fault => fault.message
  | .tree fault => fault.message

namespace Classifier

def isInitialized (classifier : Classifier) : Bool :=
  classifier.tree.isSome

/-- The nodes of the tree, the root included. -/
def nodeCount (classifier : Classifier) : Nat :=
  classifier.tree.elim 0 fun tree => tree.outline.nodes.length

/-- The whole name of a node of the tree. -/
def nameOf (classifier : Classifier) (node : Outline.Node) : Text :=
  classifier.tree.elim node.name (·.outline.nameOf node)

/-- The nodes of the tree on the way from the root. -/
def nodes (classifier : Classifier) : List Outline.Node :=
  classifier.tree.elim [] fun tree => tree.outline.preorder

/-- The classifier with the tree of a text in place of its own. -/
def adopt (classifier : Classifier) (text : String) : Except RuleTree.Fault Classifier :=
  (RuleTree.read classifier.format text).map fun tree => { classifier with tree := some tree }

/-- The classifier with the tree of a rule file, given what reading the file yields. The name of the
encoding is looked at before the file. -/
def load (classifier : Classifier) (contents : Except FileFault Bytes) :
    Except LoadFault Classifier := do
  if !Bytes.isEncodingName classifier.encoding then throw (.text .notEncodingName)
  let bytes ← contents.mapError .file
  let text ← (Bytes.ruleText classifier.encoding bytes).mapError .text
  (classifier.adopt text).mapError .tree

/-- The classifier with the tree of the file at a path. -/
def loadFile {m : Type → Type} [Monad m] [Host m] (classifier : Classifier) (path : String) :
    m (Except LoadFault Classifier) :=
  return classifier.load (← Host.read (Path.tidy path))

/-- The matching types of a record at each level; without a tree nothing matches. -/
def explain (classifier : Classifier) (record : Record) : List (Nat × List Outline.Node) :=
  classifier.tree.elim [] (·.explain record)

def classify (classifier : Classifier) (record : Record) : Option RuleTree.Verdict :=
  classifier.tree.bind (·.classify record)

end Classifier

end Archetype
