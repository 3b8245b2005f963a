import Mathlib.Data.Finset.Basic
import P2Panda.Core.Operation

/-!
# Connection authoriser

Allowlists and blocklists, per node and per node-topic combination.
-/

namespace P2Panda.Net

open P2Panda.Core

inductive ConnectionAuthoriserMode where
  | permissive
  | restrictive

inductive ConnectionRole where
  | acceptor
  | initiator
  deriving DecidableEq

inductive ConnectionAuthoriserEvent (TP : Type) where
  | topicBlocked (topic : TP) (node : VerifyingKey)
  | topicAllowed (topic : TP) (node : VerifyingKey)

structure ConnectionAuthoriser (TP : Type) where
  mode : ConnectionAuthoriserMode
  globalAllowlist : Finset VerifyingKey
  globalBlocklist : Finset VerifyingKey
  topicAllowlist : Finset (TP × VerifyingKey)
  topicBlocklist : Finset (TP × VerifyingKey)

namespace ConnectionAuthoriser

variable {TP : Type} [DecidableEq TP]

def new : ConnectionAuthoriser TP := ⟨.permissive, ∅, ∅, ∅, ∅⟩

inductive Change (TP : Type) where
  | permissive
  | restrictive
  | allow (node : VerifyingKey)
  | block (node : VerifyingKey)
  | topicAllow (node : VerifyingKey) (topic : TP)
  | topicBlock (node : VerifyingKey) (topic : TP)

def change (self : ConnectionAuthoriser TP) : Change TP → ConnectionAuthoriser TP
  | .permissive => { self with mode := .permissive }
  | .restrictive => { self with mode := .restrictive }
  | .allow node =>
    { self with
      globalAllowlist := insert node self.globalAllowlist
      globalBlocklist := self.globalBlocklist.erase node }
  | .block node =>
    { self with
      globalBlocklist := insert node self.globalBlocklist
      globalAllowlist := self.globalAllowlist.erase node }
  | .topicAllow node topic =>
    { self with
      topicAllowlist := insert (topic, node) self.topicAllowlist
      topicBlocklist := self.topicBlocklist.erase (topic, node) }
  | .topicBlock node topic =>
    { self with
      topicBlocklist := insert (topic, node) self.topicBlocklist
      topicAllowlist := self.topicAllowlist.erase (topic, node) }

def canConnectOnTopic (self : ConnectionAuthoriser TP) (node : VerifyingKey) (topic : TP) :
    Bool :=
  match self.mode with
  | .permissive =>
    let globalBlock := decide (node ∈ self.globalBlocklist)
    let topicBlock := decide ((topic, node) ∈ self.topicBlocklist)
    !globalBlock && !topicBlock
  | .restrictive =>
    let globalAllow := decide (node ∈ self.globalAllowlist)
    let topicAllow := decide ((topic, node) ∈ self.topicAllowlist)
    globalAllow && topicAllow

end ConnectionAuthoriser

end P2Panda.Net
