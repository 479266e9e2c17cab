import UserManagedAccess.Rdf.Store
import UserManagedAccess.Lib.Async
import UserManagedAccess.Util.Errors
import UserManagedAccess.Util.Vocabularies
import UserManagedAccess.Views.Permission
import UserManagedAccess.Credentials.Claims
import UserManagedAccess.Ticketing.Strategy.ImmediateAuthorizerStrategyTheorems
import UserManagedAccess.Ticketing.Strategy.AggregatorStrategyTheorems
import UserManagedAccess.Routes.TicketTheorems
import UserManagedAccess.Routes.ResourceRegistration
import UserManagedAccess.Lib.Except
import UserManagedAccess.Util.AggregatorUtil
import UserManagedAccess.Policies.Authorizers.BasicAuthorizers
import UserManagedAccess.Ticketing.Strategy.AggregatorDerivationTheorems
import UserManagedAccess.Policies.Authorizers.AuthorizerTreeTheorems
import UserManagedAccess.Dialog.TicketRunTheorems
import UserManagedAccess.Controller.PolicyController
import UserManagedAccess.Controller.AccessRequestController
import UserManagedAccess.Controller.RouteSpecificTheorems
import UserManagedAccess.Controller.PolicyControllerTheorems
import UserManagedAccess.Controller.PolicyPostTheorems
import UserManagedAccess.Controller.PolicyPatchTheorems
import UserManagedAccess.Controller.ControllerRuns
import UserManagedAccess.Controller.AccessRequestControllerTheorems
import UserManagedAccess.Controller.PolicyDeleteTheorems
import UserManagedAccess.Lib.Interleaving
import UserManagedAccess.Controller.ConcurrentRequests
import UserManagedAccess.Controller.ConcurrentTheorems
import UserManagedAccess.Policies.Authorizers.SimpleOdrlAuthorizerTheorems
import UserManagedAccess.Controller.PolicyDecisionsTheorems
import UserManagedAccess.Controller.PolicyEscalationTheorems
import UserManagedAccess.Controller.PolicyLocalityTheorems
import UserManagedAccess.Routes.ResourceRegistrationTheorems
import UserManagedAccess.Lib.Runs
import UserManagedAccess.Routes.DerivationStoreTheorems
import UserManagedAccess.Routes.RelationMetadata
import UserManagedAccess.Routes.RelationCollections
import UserManagedAccess.Routes.CollectionUpdates
import UserManagedAccess.Routes.DedicatedCollections
import UserManagedAccess.Routes.MembershipTheorems
import UserManagedAccess.Routes.CollectionCreatorTheorems
import UserManagedAccess.Rdf.Isomorphism
import UserManagedAccess.Routes.ReversibleTheorems
import UserManagedAccess.Routes.Collection
import UserManagedAccess.Routes.CollectionTheorems
import UserManagedAccess.Routes.CustomCollectionTheorems
import UserManagedAccess.Routes.ConcurrentRegistrations
import UserManagedAccess.Routes.ConcurrentRegistrationTheorems
import UserManagedAccess.Controller.AccessRequestRuns
import UserManagedAccess.Controller.RequestRecords
import UserManagedAccess.Controller.RequestRecordsTheorems
import UserManagedAccess.Controller.RequestBodies
import UserManagedAccess.Controller.AccessRequestLifeCycle
import UserManagedAccess.Controller.AccessRequestDecisions
import UserManagedAccess.Ucp.UnreliableUCRulesStorage
import UserManagedAccess.Controller.PolicyWrites
import UserManagedAccess.Controller.PolicyWriteTheorems
import UserManagedAccess.Dialog.PlainNegotiator
import UserManagedAccess.Dialog.AggregatorNegotiator
import UserManagedAccess.Dialog.AggregatorNegotiatorTheorems
import UserManagedAccess.Tokens.TokenStore
import UserManagedAccess.Credentials.Verifiers
import UserManagedAccess.Routes.RefreshToken
import UserManagedAccess.Tokens.TokenStoreTheorems
import UserManagedAccess.Routes.RefreshTokenTheorems
import UserManagedAccess.Routes.TokenHistory
import UserManagedAccess.Routes.TokenHistoryTheorems
import UserManagedAccess.Credentials.IdentityClaims
import UserManagedAccess.Ticketing.Strategy.CollectingStrategy
import UserManagedAccess.Routes.RefreshIdentity
import UserManagedAccess.Lib.Rely
import UserManagedAccess.Routes.ConcurrentRefreshes
import UserManagedAccess.Routes.ConcurrentRefreshTheorems
import UserManagedAccess.Dialog.ConcurrentNegotiations
import UserManagedAccess.Dialog.ConcurrentNegotiationTheorems
import UserManagedAccess.Dialog.SplitRounds
import UserManagedAccess.Dialog.SplitRoundTheorems
import UserManagedAccess.Lib.Tasks
import UserManagedAccess.Css.UmaClient
import UserManagedAccess.Css.Duties
import UserManagedAccess.Css.DutiesTheorems
import UserManagedAccess.Css.Ledger
import UserManagedAccess.Css.Registrations
import UserManagedAccess.Css.ClientRuns
import UserManagedAccess.Css.Simulation
import UserManagedAccess.Css.UmaClientTheorems
import UserManagedAccess.Css.UmaPermissionReader
import UserManagedAccess.Policies.Authorizers.ConstraintTheorems
import UserManagedAccess.Policies.Authorizers.ProhibitionTheorems
import UserManagedAccess.Policies.Authorizers.OdrlAuthorizerTheorems
import UserManagedAccess.Ticketing.Strategy.AggregatorIdTheorems
import UserManagedAccess.Controller.RequestVisibility
import UserManagedAccess.Lib.Calls
import UserManagedAccess.Lib.Table
import UserManagedAccess.Routes.ClientRegistration
import UserManagedAccess.Routes.UmaProtection
import UserManagedAccess.Routes.ConcurrentCredentials
import UserManagedAccess.Routes.ConcurrentCredentialTheorems
import UserManagedAccess.Ucp.FileBackupUCRulesStorage
import UserManagedAccess.Ucp.FileBackupTheorems
import UserManagedAccess.Css.TokenVerification
import UserManagedAccess.Css.IntrospectionTheorems
import UserManagedAccess.Css.RegistrationRequests
import UserManagedAccess.Css.Deployment
import UserManagedAccess.Css.DeploymentTheorems
import UserManagedAccess.Lib.Verdict
import UserManagedAccess.Policies.Authorizers.OdrlEvaluation
import UserManagedAccess.Policies.Authorizers.OdrlRequestTheorems
import UserManagedAccess.Policies.Authorizers.OdrlAgreementTheorems
import UserManagedAccess.Policies.Authorizers.PlainRuleTheorems
import UserManagedAccess.Lib.SetMultiMap
import UserManagedAccess.Css.AuxiliaryModesExtractor
import UserManagedAccess.Css.ParentCreateExtractor
import UserManagedAccess.Policies.Authorizers.NamespacedAuthorizerTheorems
import UserManagedAccess.Routes.RelationSoundness
import UserManagedAccess.Css.PausableFetcher
import UserManagedAccess.Credentials.OidcVerifier
import UserManagedAccess.Ucp.BackupRuns
import UserManagedAccess.Ucp.ContainerUCRulesStorage
import UserManagedAccess.Ucp.ContainerTheorems
import UserManagedAccess.Ucp.DirectoryUCRulesStorage
import UserManagedAccess.Tokens.TokenRoundTrip
import UserManagedAccess.Lib.PrefixCode
import UserManagedAccess.Credentials.IriVerifierTheorems
import UserManagedAccess.Lib.Walks
import UserManagedAccess.Ucp.UtilTheorems
import UserManagedAccess.Lib.Separated
import UserManagedAccess.Routes.RelationDifferences
import UserManagedAccess.Routes.CollectionIdentifiers
import UserManagedAccess.Lib.Authors
import UserManagedAccess.Lib.Utf8
import UserManagedAccess.Lib.Base64
import UserManagedAccess.Credentials.UriComponents
import UserManagedAccess.Util.QueryString
import UserManagedAccess.Util.UrlEncodedForms
import UserManagedAccess.Util.Buffers
import UserManagedAccess.Credentials.UnsecureVerifier
import UserManagedAccess.Routes.PatRequestValidator
import UserManagedAccess.Routes.PatRequestTheorems
import UserManagedAccess.Css.Bootstrap
import UserManagedAccess.Lib.Contracts
import UserManagedAccess.Css.Confinement
import UserManagedAccess.Css.OwnerUtil
import UserManagedAccess.Css.UmaAuthorizer
import UserManagedAccess.Css.UmaTokenExtractor
import UserManagedAccess.Css.UmaTokenExtractorTheorems
import UserManagedAccess.Policies.Authorizers.SimpleOdrlQueryTheorems
import UserManagedAccess.Css.AccessRuns
import UserManagedAccess.Css.TicketFlow
import UserManagedAccess.Dialog.ContractNegotiator
import UserManagedAccess.Dialog.ContractNegotiatorTheorems
import UserManagedAccess.Routes.BaseHandlerTheorems
