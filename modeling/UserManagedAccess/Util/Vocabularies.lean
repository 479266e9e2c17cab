/-
UserManagedAccess.Util.Vocabularies — the IRIs the server's code mentions.

`Vocabularies.ts` gives each name as a string (`ODRL.read`) and as a term
(`ODRL.terms.read`). The definitions here are the terms; where the code uses
the string, `Term.value` reads it off.
-/
import UserManagedAccess.Rdf.Term

namespace UserManagedAccess.Util

open UserManagedAccess.Rdf

namespace RDF

def type : Term := .namedNode "http://www.w3.org/1999/02/22-rdf-syntax-ns#type"

end RDF

namespace ODRL

def Agreement : Term := .namedNode "http://www.w3.org/ns/odrl/2/Agreement"
def Set : Term := .namedNode "http://www.w3.org/ns/odrl/2/Set"
def Request : Term := .namedNode "http://www.w3.org/ns/odrl/2/Request"
def Permission : Term := .namedNode "http://www.w3.org/ns/odrl/2/Permission"
def Prohibition : Term := .namedNode "http://www.w3.org/ns/odrl/2/Prohibition"
def Duty : Term := .namedNode "http://www.w3.org/ns/odrl/2/Duty"
def Constraint : Term := .namedNode "http://www.w3.org/ns/odrl/2/Constraint"
def uid : Term := .namedNode "http://www.w3.org/ns/odrl/2/uid"
def permission : Term := .namedNode "http://www.w3.org/ns/odrl/2/permission"
def prohibition : Term := .namedNode "http://www.w3.org/ns/odrl/2/prohibition"
def obligation : Term := .namedNode "http://www.w3.org/ns/odrl/2/obligation"
def action : Term := .namedNode "http://www.w3.org/ns/odrl/2/action"
def target : Term := .namedNode "http://www.w3.org/ns/odrl/2/target"
def assignee : Term := .namedNode "http://www.w3.org/ns/odrl/2/assignee"
def assigner : Term := .namedNode "http://www.w3.org/ns/odrl/2/assigner"
def partOf : Term := .namedNode "http://www.w3.org/ns/odrl/2/partOf"
def constraint : Term := .namedNode "http://www.w3.org/ns/odrl/2/constraint"
def leftOperand : Term := .namedNode "http://www.w3.org/ns/odrl/2/leftOperand"
def operator : Term := .namedNode "http://www.w3.org/ns/odrl/2/operator"
def rightOperand : Term := .namedNode "http://www.w3.org/ns/odrl/2/rightOperand"
def dateTime : Term := .namedNode "http://www.w3.org/ns/odrl/2/dateTime"
def purpose : Term := .namedNode "http://www.w3.org/ns/odrl/2/purpose"
def deliveryChannel : Term := .namedNode "http://www.w3.org/ns/odrl/2/deliveryChannel"
def eq : Term := .namedNode "http://www.w3.org/ns/odrl/2/eq"
def neq : Term := .namedNode "http://www.w3.org/ns/odrl/2/neq"
def lt : Term := .namedNode "http://www.w3.org/ns/odrl/2/lt"
def lteq : Term := .namedNode "http://www.w3.org/ns/odrl/2/lteq"
def gt : Term := .namedNode "http://www.w3.org/ns/odrl/2/gt"
def gteq : Term := .namedNode "http://www.w3.org/ns/odrl/2/gteq"
def read : Term := .namedNode "http://www.w3.org/ns/odrl/2/read"
def append : Term := .namedNode "http://www.w3.org/ns/odrl/2/append"
def write : Term := .namedNode "http://www.w3.org/ns/odrl/2/write"
def modify : Term := .namedNode "http://www.w3.org/ns/odrl/2/modify"
def delete : Term := .namedNode "http://www.w3.org/ns/odrl/2/delete"
def use : Term := .namedNode "http://www.w3.org/ns/odrl/2/use"
def AssetCollection : Term := .namedNode "http://www.w3.org/ns/odrl/2/AssetCollection"
def PartyCollection : Term := .namedNode "http://www.w3.org/ns/odrl/2/PartyCollection"
def source : Term := .namedNode "http://www.w3.org/ns/odrl/2/source"

end ODRL

namespace ODRL_P

def relation : Term := .namedNode "https://w3id.org/force/odrl3proposal#relation"

end ODRL_P

namespace OWL

def inverseOf : Term := .namedNode "http://www.w3.org/2002/07/owl#inverseOf"

end OWL

namespace DC

def creator : Term := .namedNode "http://purl.org/dc/terms/creator"
def description : Term := .namedNode "http://purl.org/dc/terms/description"

end DC

namespace OVC

def constraint : Term := .namedNode "https://w3id.org/gaia-x/ovc/1/constraint"
def credentialSubjectType : Term :=
  .namedNode "https://w3id.org/gaia-x/ovc/1/credentialSubjectType"
def leftOperand : Term := .namedNode "https://w3id.org/gaia-x/ovc/1/leftOperand"

end OVC

namespace SOTW

def EvaluationRequest : Term := .namedNode "https://w3id.org/force/sotw#EvaluationRequest"
def requested : Term := .namedNode "https://w3id.org/force/sotw#requested"
def accepted : Term := .namedNode "https://w3id.org/force/sotw#accepted"
def denied : Term := .namedNode "https://w3id.org/force/sotw#denied"
def requestedAction : Term := .namedNode "https://w3id.org/force/sotw#requestedAction"
def requestedTarget : Term := .namedNode "https://w3id.org/force/sotw#requestedTarget"
def requestingParty : Term := .namedNode "https://w3id.org/force/sotw#requestingParty"
def requestStatus : Term := .namedNode "https://w3id.org/force/sotw#requestStatus"
def context : Term := .namedNode "https://w3id.org/force/sotw#context"

end SOTW

namespace UmaScopes

def derivationCreation : String := "urn:knows:uma:scopes:derivation-creation"
def derivationRead : String := "urn:knows:uma:scopes:derivation-read"

end UmaScopes

end UserManagedAccess.Util
