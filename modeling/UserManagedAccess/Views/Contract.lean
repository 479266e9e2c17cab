/-
UserManagedAccess.Views.Contract — the checks of ODRL permissions in a
request body.
-/
import UserManagedAccess.Util.ReType

namespace UserManagedAccess.Views

open UserManagedAccess.Util

def JsonLdIdentifier : Assertion := ReType.fields [("@id", ReType.string)]

def StringOrJsonLdIdentifier : Assertion := ReType.union [ReType.string, JsonLdIdentifier]

def ODRLAssetCollection : Assertion :=
  ReType.fields [("@type", ReType.string), ("source", ReType.string)]

def ODRLTargetOrAssetCollection : Assertion :=
  ReType.union [StringOrJsonLdIdentifier, ODRLAssetCollection]

def ODRLConstraint : Assertion :=
  ReType.fields [("@type", ReType.optional ReType.string),
    ("@id", ReType.optional ReType.string),
    ("uid", ReType.optional ReType.string),
    ("leftOperand", StringOrJsonLdIdentifier),
    ("operator", StringOrJsonLdIdentifier),
    ("rightOperand", StringOrJsonLdIdentifier)]

def ODRLPermission : Assertion :=
  ReType.fields [("@type", ReType.optional ReType.string),
    ("@id", ReType.optional ReType.string),
    ("uid", ReType.optional ReType.string),
    ("action", StringOrJsonLdIdentifier),
    ("target", ODRLTargetOrAssetCollection),
    ("assigner", StringOrJsonLdIdentifier),
    ("assignee", StringOrJsonLdIdentifier),
    ("constraint", ReType.optional (ReType.array ODRLConstraint))]

def ODRLContract : Assertion :=
  ReType.fields [("@context", ReType.optional ReType.string),
    ("@type", ReType.optional ReType.string),
    ("uid", ReType.string),
    ("permission", ReType.array ODRLPermission),
    ("https://w3id.org/dpv#hasLegalBasis", ReType.optional StringOrJsonLdIdentifier),
    ("http://purl.org/dc/terms/description", ReType.optional ReType.string),
    ("http://www.w3.org/ns/prov#wasDerivedFrom", ReType.optional (ReType.array ReType.string))]

end UserManagedAccess.Views
