-- The IRIs of RDF, RDFS and XML Schema that the rules speak of, each named
-- as its vocabulary spells it: classes with a capital, properties without.
import RdfEntailment.Term

namespace RdfEntailment

/-- The datatype of a literal that is written with no datatype. -/
def xsdString : String := "http://www.w3.org/2001/XMLSchema#string"

namespace Rdf

def type : Term := .iri "http://www.w3.org/1999/02/22-rdf-syntax-ns#type"

def Property : Term := .iri "http://www.w3.org/1999/02/22-rdf-syntax-ns#Property"

end Rdf

namespace Rdfs

def domain : Term := .iri "http://www.w3.org/2000/01/rdf-schema#domain"

def range : Term := .iri "http://www.w3.org/2000/01/rdf-schema#range"

def Resource : Term := .iri "http://www.w3.org/2000/01/rdf-schema#Resource"

def subPropertyOf : Term := .iri "http://www.w3.org/2000/01/rdf-schema#subPropertyOf"

def Class : Term := .iri "http://www.w3.org/2000/01/rdf-schema#Class"

def subClassOf : Term := .iri "http://www.w3.org/2000/01/rdf-schema#subClassOf"

def ContainerMembershipProperty : Term :=
  .iri "http://www.w3.org/2000/01/rdf-schema#ContainerMembershipProperty"

def member : Term := .iri "http://www.w3.org/2000/01/rdf-schema#member"

def Datatype : Term := .iri "http://www.w3.org/2000/01/rdf-schema#Datatype"

def Literal : Term := .iri "http://www.w3.org/2000/01/rdf-schema#Literal"

end Rdfs

end RdfEntailment
