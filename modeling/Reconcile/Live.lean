import Reconcile.Declared

/-!
# What the control plane holds

A live project in the form in which it travels: no field is optional, instants are whole Unix
seconds, and an expiry of 0 stands for none. Kinds of objects travel as they are declared.
-/

namespace Reconcile.Live

structure Token where
  id : String
  issued : Int
  expiry : Int
deriving DecidableEq, Repr

structure Role where
  name : String
  description : String := ""
  policies : List String := []
  groups : List String := []
  tokens : List Token := []
deriving DecidableEq, Repr

structure Destination where
  server : String := ""
  namespaceName : String := ""
  name : String := ""
deriving DecidableEq, Repr

structure Spec where
  description : String := ""
  sourceRepos : List String := []
  sourceNamespaces : List String := []
  destinations : List Destination := []
  clusterWhitelist : List GroupKind := []
  namespaceBlacklist : List GroupKind := []
  roles : List Role := []
deriving DecidableEq, Repr

/-- A live project. The version changes with every write; `tokensByRole` is the control plane's own
index of the issued tokens. -/
structure Project where
  name : String
  labels : Dict String := ∅
  version : String := ""
  spec : Spec := {}
  tokensByRole : Dict (List Token) := ∅
deriving DecidableEq

end Reconcile.Live
