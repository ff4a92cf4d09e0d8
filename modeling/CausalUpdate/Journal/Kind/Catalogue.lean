import CausalUpdate.Journal.Kind.Holders
import CausalUpdate.Journal.Kind.Numbers
import CausalUpdate.Journal.Kind.Operations
import CausalUpdate.Journal.Kind.Roots
import CausalUpdate.Journal.Kind.Texts

/-!
# The members of all kinds

A member of a kind is looked up by its name, in the kind first and then in what it goes back to; the
first kind that has it decides.

* `Kind.description` — all that there is to know about a kind.
* `Kind.find?` — the member that values of a kind have under a name.
-/

namespace CausalUpdate

namespace Kind

/-- All that there is to know about a kind. -/
def description : Kind → Description
  | root => rootDescription
  | kind => kindDescription
  | narrowed => narrowedDescription
  | text => textDescription
  | decimal => decimalDescription
  | whole => wholeDescription
  | truth => truthDescription
  | entries => entriesDescription
  | list => listDescription
  | row => rowDescription
  | directory => directoryDescription
  | absent => absentDescription
  | operation => operationDescription
  | signed => signedDescription
  | method => methodDescription
  | sign => signDescription
  | shared => sharedDescription
  | free => freeDescription
  | part => partDescription
  | field => fieldDescription

/-- The member that a kind itself has under a name. -/
def own? (k : Kind) (name : String) : Option Member :=
  k.description.members.find? fun m => m.name = name

/-- The member that values of a kind have under a name, with the kind that it belongs to. -/
def find? (k : Kind) (name : String) : Option (Kind × Member) :=
  k.ancestry.findSome? fun owner => (owner.own? name).map fun m => (owner, m)

end Kind

end CausalUpdate
