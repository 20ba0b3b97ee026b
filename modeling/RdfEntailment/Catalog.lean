-- The entailment rules of RDF and RDFS that read one or two triples.
import RdfEntailment.Rule
import RdfEntailment.Vocabulary

namespace RdfEntailment

namespace Catalog

open Name

/-- Every predicate is a property. -/
def rdf1 : Rule where
  name := some "rdf1"
  antecedents := [⟨uuu.var, aaa.var, yyy.var⟩]
  consequents := [⟨aaa.var, Rdf.type, Rdf.Property⟩]
  constraints := NameMap.ofList [(aaa, .iri)]

/-- The subject of a property is in its domain. -/
def rdfs2 : Rule where
  name := some "rdfs2"
  antecedents := [⟨aaa.var, Rdfs.domain, xxx.var⟩, ⟨uuu.var, aaa.var, yyy.var⟩]
  consequents := [⟨uuu.var, Rdf.type, xxx.var⟩]
  constraints := ∅

/-- The object of a property is in its range. -/
def rdfs3 : Rule where
  name := some "rdfs3"
  antecedents := [⟨aaa.var, Rdfs.range, xxx.var⟩, ⟨uuu.var, aaa.var, vvv.var⟩]
  consequents := [⟨vvv.var, Rdf.type, xxx.var⟩]
  constraints := ∅

/-- Every subject is a resource. -/
def rdfs4a : Rule where
  name := some "rdfs4a"
  antecedents := [⟨uuu.var, aaa.var, xxx.var⟩]
  consequents := [⟨uuu.var, Rdf.type, Rdfs.Resource⟩]
  constraints := ∅

/-- Every object is a resource. -/
def rdfs4b : Rule where
  name := some "rdfs4b"
  antecedents := [⟨uuu.var, aaa.var, vvv.var⟩]
  consequents := [⟨vvv.var, Rdf.type, Rdfs.Resource⟩]
  constraints := ∅

/-- The sub-property relation is transitive. -/
def rdfs5 : Rule where
  name := some "rdfs5"
  antecedents := [⟨uuu.var, Rdfs.subPropertyOf, vvv.var⟩, ⟨vvv.var, Rdfs.subPropertyOf, xxx.var⟩]
  consequents := [⟨uuu.var, Rdfs.subPropertyOf, xxx.var⟩]
  constraints := ∅

/-- Every property is a sub-property of itself. -/
def rdfs6 : Rule where
  name := some "rdfs6"
  antecedents := [⟨uuu.var, Rdf.type, Rdf.Property⟩]
  consequents := [⟨uuu.var, Rdfs.subPropertyOf, uuu.var⟩]
  constraints := ∅

/-- A statement holds for the super-properties of its predicate. -/
def rdfs7 : Rule where
  name := some "rdfs7"
  antecedents := [⟨aaa.var, Rdfs.subPropertyOf, bbb.var⟩, ⟨uuu.var, aaa.var, yyy.var⟩]
  consequents := [⟨uuu.var, bbb.var, yyy.var⟩]
  constraints := ∅

/-- Every class is a subclass of the resources. -/
def rdfs8 : Rule where
  name := some "rdfs8"
  antecedents := [⟨uuu.var, Rdf.type, Rdfs.Class⟩]
  consequents := [⟨uuu.var, Rdfs.subClassOf, Rdfs.Resource⟩]
  constraints := ∅

/-- An instance of a class is an instance of its super-classes. -/
def rdfs9 : Rule where
  name := some "rdfs9"
  antecedents := [⟨uuu.var, Rdfs.subClassOf, xxx.var⟩, ⟨vvv.var, Rdf.type, uuu.var⟩]
  consequents := [⟨vvv.var, Rdf.type, xxx.var⟩]
  constraints := ∅

/-- Every class is a subclass of itself. -/
def rdfs10 : Rule where
  name := some "rdfs10"
  antecedents := [⟨uuu.var, Rdf.type, Rdfs.Class⟩]
  consequents := [⟨uuu.var, Rdfs.subClassOf, uuu.var⟩]
  constraints := ∅

/-- The subclass relation is transitive. -/
def rdfs11 : Rule where
  name := some "rdfs11"
  antecedents := [⟨uuu.var, Rdfs.subClassOf, vvv.var⟩, ⟨vvv.var, Rdfs.subClassOf, xxx.var⟩]
  consequents := [⟨uuu.var, Rdfs.subClassOf, xxx.var⟩]
  constraints := ∅

/-- Every container membership property is a sub-property of membership. -/
def rdfs12 : Rule where
  name := some "rdfs12"
  antecedents := [⟨uuu.var, Rdf.type, Rdfs.ContainerMembershipProperty⟩]
  consequents := [⟨uuu.var, Rdfs.subPropertyOf, Rdfs.member⟩]
  constraints := ∅

/-- Every datatype is a subclass of the literals. -/
def rdfs13 : Rule where
  name := some "rdfs13"
  antecedents := [⟨uuu.var, Rdf.type, Rdfs.Datatype⟩]
  consequents := [⟨uuu.var, Rdfs.subClassOf, Rdfs.Literal⟩]
  constraints := ∅

/-! ## The whole catalog -/

def all : List Rule :=
  [rdf1, rdfs2, rdfs3, rdfs4a, rdfs4b, rdfs5, rdfs6, rdfs7, rdfs8, rdfs9, rdfs10, rdfs11, rdfs12,
    rdfs13]

def find? (name : String) : Option Rule := all.find? fun r => r.name = some name

theorem find?_label : ∀ r ∈ all, find? r.label = some r := by decide

end Catalog

end RdfEntailment
