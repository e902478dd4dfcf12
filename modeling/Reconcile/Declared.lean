import Reconcile.Text

/-!
# What a user declares

The desired configuration of a project: its description, labels and lists, and its roles with the
tokens that should exist for each. Everything but names is optional, and durations are still text
here, because a bad duration is reported when it is used and not when it is read.
-/

namespace Reconcile

/-- A token that should exist for a role. A token without `expiresIn` never expires. The two
renewal policies are independent, and either may ask for a new token. -/
structure TokenSpec where
  id : String
  expiresIn : Option String := none
  renewBefore : Option String := none
  renewAfter : Option String := none
  description : Option String := none
deriving DecidableEq, Repr

structure Role where
  name : String
  description : Option String := none
  policies : List String := []
  groups : List String := []
  tokens : List TokenSpec := []
deriving DecidableEq, Repr

/-- A place that applications of the project may be deployed to. -/
structure Destination where
  server : Option String := none
  namespaceName : Option String := none
  name : Option String := none
deriving DecidableEq, Repr

structure GroupKind where
  group : String := ""
  kind : String
deriving DecidableEq, Repr

structure Parameters where
  description : Option String := none
  labels : Dict String := ∅
  sourceRepos : List String := []
  sourceNamespaces : List String := []
  destinations : List Destination := []
  clusterWhitelist : List GroupKind := []
  namespaceBlacklist : List GroupKind := []
  roles : List Role := []
deriving DecidableEq

end Reconcile
