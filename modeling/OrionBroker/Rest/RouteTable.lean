import Mathlib.Data.List.Basic

/-!
# The route table (contextBroker.cpp:318-938)

A row keeps the words of the source: the verb, the number of components and the component vector, the first word of the
payload, and the function that treats the request. The end marker is the end of the list.

| here | there |
| --- | --- |
| `RestService`      | `RestService` (RestService.h:52), without the request type |
| `Treat`            | the functions in the last column |
| `restServiceV`     | the same (contextBroker.cpp:879), with the rows of a `DEBUG` build or without |
| `restServiceNgsi9` | the same (contextBroker.cpp:915) |

Every row but the catch-all has the number of components it names, and at most nine.
-/

namespace OrionBroker.Rest

inductive Treat
  | postRegisterContext | badVerbPostOnly | postDiscoverContextAvailability | postSubscribeContextAvailability
  | postUnsubscribeContextAvailability | postUpdateContextAvailabilitySubscription | postNotifyContextAvailability
  | postUpdateContext | postQueryContext | postSubscribeContext | postUpdateContextSubscription
  | postUnsubscribeContext | postNotifyContext | getContextEntitiesByEntityId | postContextEntitiesByEntityId
  | badVerbGetPostOnly | getContextEntityAttributes | postContextEntityAttributes | getEntityByIdAttributeByName
  | postEntityByIdAttributeByName | getContextEntityTypes | postContextEntityTypes | getContextEntityTypeAttribute
  | postContextEntityTypeAttribute | putAvailabilitySubscriptionConvOp | deleteAvailabilitySubscriptionConvOp
  | badVerbPutDeleteOnly | getIndividualContextEntity | putIndividualContextEntity | postIndividualContextEntity
  | deleteIndividualContextEntity | badVerbAllFour | getIndividualContextEntityAttributes
  | putIndividualContextEntityAttributes | postIndividualContextEntityAttributes
  | deleteIndividualContextEntityAttributes | getIndividualContextEntityAttribute
  | putIndividualContextEntityAttribute | postIndividualContextEntityAttribute
  | deleteIndividualContextEntityAttribute | badVerbGetPostDeleteOnly | getAttributeValueInstance
  | putAttributeValueInstance | deleteAttributeValueInstance | badVerbGetPutDeleteOnly | getNgsi10ContextEntityTypes
  | badVerbGetOnly | getNgsi10ContextEntityTypesAttribute | putSubscriptionConvOp | deleteSubscriptionConvOp
  | getEntityTypes | getAttributesForEntityType | getAllContextEntities | getAllEntitiesWithTypeAndId
  | postAllEntitiesWithTypeAndId | putAllEntitiesWithTypeAndId | deleteAllEntitiesWithTypeAndId
  | getIndividualContextEntityAttributeWithTypeAndId | postIndividualContextEntityAttributeWithTypeAndId
  | putIndividualContextEntityAttributeWithTypeAndId | deleteIndividualContextEntityAttributeWithTypeAndId
  | getAttributeValueInstanceWithTypeAndId | postAttributeValueInstanceWithTypeAndId
  | putAttributeValueInstanceWithTypeAndId | deleteAttributeValueInstanceWithTypeAndId
  | getContextEntitiesByEntityIdAndType | postContextEntitiesByEntityIdAndType
  | getEntityByIdAttributeByNameWithTypeAndId | postEntityByIdAttributeByNameWithTypeAndId | logTraceTreat
  | statisticsTreat | badVerbGetDeleteOnly | versionTreat | exitTreat | leakTreat | badNgsi9Request
  | badNgsi10Request | badRequest
deriving DecidableEq

structure RestService where
  verb : String
  components : Nat
  /-- What the initializer gives; the other entries of the array are empty. -/
  compV : List String
  payloadWord : String
  treat : Treat
deriving DecidableEq

/-- A row as the macros put it together. -/
def row (verb : String) (comps : Nat × List String) (payloadWord : String) (treat : Treat) : RestService :=
  ⟨verb, comps.1, comps.2, payloadWord, treat⟩

/-! ## Components and payload words -/

def RCR_COMPS_V0 : Nat × List String := (2, ["ngsi9", "registerContext"])
def RCR_COMPS_V1 : Nat × List String := (3, ["v1", "registry", "registerContext"])
def DCAR_COMPS_V0 : Nat × List String := (2, ["ngsi9", "discoverContextAvailability"])
def DCAR_COMPS_V1 : Nat × List String := (3, ["v1", "registry", "discoverContextAvailability"])
def SCAR_COMPS_V0 : Nat × List String := (2, ["ngsi9", "subscribeContextAvailability"])
def SCAR_COMPS_V1 : Nat × List String := (3, ["v1", "registry", "subscribeContextAvailability"])
def UCAR_COMPS_V0 : Nat × List String := (2, ["ngsi9", "unsubscribeContextAvailability"])
def UCAR_COMPS_V1 : Nat × List String := (3, ["v1", "registry", "unsubscribeContextAvailability"])
def UCAS_COMPS_V0 : Nat × List String := (2, ["ngsi9", "updateContextAvailabilitySubscription"])
def UCAS_COMPS_V1 : Nat × List String := (3, ["v1", "registry", "updateContextAvailabilitySubscription"])
def NCAR_COMPS_V0 : Nat × List String := (2, ["ngsi9", "notifyContextAvailability"])
def NCAR_COMPS_V1 : Nat × List String := (3, ["v1", "registry", "notifyContextAvailability"])
def UPCR_COMPS_V0 : Nat × List String := (2, ["ngsi10", "updateContext"])
def UPCR_COMPS_V1 : Nat × List String := (2, ["v1", "updateContext"])
def QCR_COMPS_V0 : Nat × List String := (2, ["ngsi10", "queryContext"])
def QCR_COMPS_V1 : Nat × List String := (2, ["v1", "queryContext"])
def SCR_COMPS_V0 : Nat × List String := (2, ["ngsi10", "subscribeContext"])
def SCR_COMPS_V1 : Nat × List String := (2, ["v1", "subscribeContext"])
def UCSR_COMPS_V0 : Nat × List String := (2, ["ngsi10", "updateContextSubscription"])
def UCSR_COMPS_V1 : Nat × List String := (2, ["v1", "updateContextSubscription"])
def UNCR_COMPS_V0 : Nat × List String := (2, ["ngsi10", "unsubscribeContext"])
def UNCR_COMPS_V1 : Nat × List String := (2, ["v1", "unsubscribeContext"])
def NCR_COMPS_V0 : Nat × List String := (2, ["ngsi10", "notifyContext"])
def NCR_COMPS_V1 : Nat × List String := (2, ["v1", "notifyContext"])
def CE_COMPS_V0 : Nat × List String := (3, ["ngsi9", "contextEntities", "*"])
def CE_COMPS_V1 : Nat × List String := (4, ["v1", "registry", "contextEntities", "*"])
def CEA_COMPS_V0 : Nat × List String := (4, ["ngsi9", "contextEntities", "*", "attributes"])
def CEA_COMPS_V1 : Nat × List String := (5, ["v1", "registry", "contextEntities", "*", "attributes"])
def CEAA_COMPS_V0 : Nat × List String := (5, ["ngsi9", "contextEntities", "*", "attributes", "*"])
def CEAA_COMPS_V1 : Nat × List String := (6, ["v1", "registry", "contextEntities", "*", "attributes", "*"])
def CT_COMPS_V0 : Nat × List String := (3, ["ngsi9", "contextEntityTypes", "*"])
def CT_COMPS_V1 : Nat × List String := (4, ["v1", "registry", "contextEntityTypes", "*"])
def CTA_COMPS_V0 : Nat × List String := (4, ["ngsi9", "contextEntityTypes", "*", "attributes"])
def CTA_COMPS_V1 : Nat × List String := (5, ["v1", "registry", "contextEntityTypes", "*", "attributes"])
def CTAA_COMPS_V0 : Nat × List String := (5, ["ngsi9", "contextEntityTypes", "*", "attributes", "*"])
def CTAA_COMPS_V1 : Nat × List String := (6, ["v1", "registry", "contextEntityTypes", "*", "attributes", "*"])
def SCA_COMPS_V0 : Nat × List String := (2, ["ngsi9", "contextAvailabilitySubscriptions"])
def SCA_COMPS_V1 : Nat × List String := (3, ["v1", "registry", "contextAvailabilitySubscriptions"])
def SCAS_COMPS_V0 : Nat × List String := (3, ["ngsi9", "contextAvailabilitySubscriptions", "*"])
def SCAS_COMPS_V1 : Nat × List String := (4, ["v1", "registry", "contextAvailabilitySubscriptions", "*"])
def ICE_COMPS_V0 : Nat × List String := (3, ["ngsi10", "contextEntities", "*"])
def ICE_COMPS_V1 : Nat × List String := (3, ["v1", "contextEntities", "*"])
def ICEA_COMPS_V0 : Nat × List String := (4, ["ngsi10", "contextEntities", "*", "attributes"])
def ICEA_COMPS_V1 : Nat × List String := (4, ["v1", "contextEntities", "*", "attributes"])
def ICEAA_COMPS_V0 : Nat × List String := (5, ["ngsi10", "contextEntities", "*", "attributes", "*"])
def ICEAA_COMPS_V1 : Nat × List String := (5, ["v1", "contextEntities", "*", "attributes", "*"])
def AVI_COMPS_V0 : Nat × List String := (6, ["ngsi10", "contextEntities", "*", "attributes", "*", "*"])
def AVI_COMPS_V1 : Nat × List String := (6, ["v1", "contextEntities", "*", "attributes", "*", "*"])
def CET_COMPS_V0 : Nat × List String := (3, ["ngsi10", "contextEntityTypes", "*"])
def CET_COMPS_V1 : Nat × List String := (3, ["v1", "contextEntityTypes", "*"])
def CETA_COMPS_V0 : Nat × List String := (4, ["ngsi10", "contextEntityTypes", "*", "attributes"])
def CETA_COMPS_V1 : Nat × List String := (4, ["v1", "contextEntityTypes", "*", "attributes"])
def CETAA_COMPS_V0 : Nat × List String := (5, ["ngsi10", "contextEntityTypes", "*", "attributes", "*"])
def CETAA_COMPS_V1 : Nat × List String := (5, ["v1", "contextEntityTypes", "*", "attributes", "*"])
def SC_COMPS_V0 : Nat × List String := (2, ["ngsi10", "contextSubscriptions"])
def SC_COMPS_V1 : Nat × List String := (2, ["v1", "contextSubscriptions"])
def SCS_COMPS_V0 : Nat × List String := (3, ["ngsi10", "contextSubscriptions", "*"])
def SCS_COMPS_V1 : Nat × List String := (3, ["v1", "contextSubscriptions", "*"])
def ET_COMPS_V1 : Nat × List String := (2, ["v1", "contextTypes"])
def AFET_COMPS_V1 : Nat × List String := (3, ["v1", "contextTypes", "*"])
def ACE_COMPS_V1 : Nat × List String := (2, ["v1", "contextEntities"])
def ACET_COMPS_V1 : Nat × List String := (6, ["v1", "contextEntities", "type", "*", "id", "*"])
def ICEAAT_COMPS_V1 : Nat × List String := (8, ["v1", "contextEntities", "type", "*", "id", "*", "attributes", "*"])
def AVIT_COMPS_V1 : Nat × List String := (9, ["v1", "contextEntities", "type", "*", "id", "*", "attributes", "*", "*"])
def CEET_COMPS_V1 : Nat × List String := (7, ["v1", "registry", "contextEntities", "type", "*", "id", "*"])
def CEAAT_COMPS_V1 : Nat × List String :=
  (9, ["v1", "registry", "contextEntities", "type", "*", "id", "*", "attributes", "*"])
def LOGT_COMPS_V0 : Nat × List String := (2, ["log", "trace"])
def LOGTL_COMPS_V0 : Nat × List String := (3, ["log", "trace", "*"])
def LOG2T_COMPS_V0 : Nat × List String := (2, ["log", "traceLevel"])
def LOG2TL_COMPS_V0 : Nat × List String := (3, ["log", "traceLevel", "*"])
def LOGT_COMPS_V1 : Nat × List String := (4, ["v1", "admin", "log", "trace"])
def LOGTL_COMPS_V1 : Nat × List String := (5, ["v1", "admin", "log", "trace", "*"])
def LOG2T_COMPS_V1 : Nat × List String := (4, ["v1", "admin", "log", "traceLevel"])
def LOG2TL_COMPS_V1 : Nat × List String := (5, ["v1", "admin", "log", "traceLevel", "*"])
def STAT_COMPS_V0 : Nat × List String := (1, ["statistics"])
def STAT_COMPS_V1 : Nat × List String := (3, ["v1", "admin", "statistics"])
def VERS_COMPS : Nat × List String := (1, ["version"])
def EXIT1_COMPS : Nat × List String := (1, ["exit"])
def EXIT2_COMPS : Nat × List String := (2, ["exit", "*"])
def LEAK1_COMPS : Nat × List String := (1, ["leak"])
def LEAK2_COMPS : Nat × List String := (2, ["leak", "*"])
def INV9_COMPS : Nat × List String := (2, ["ngsi9", "*"])
def INV10_COMPS : Nat × List String := (2, ["ngsi10", "*"])
def INV_ALL_COMPS : Nat × List String := (0, ["*", "*", "*", "*", "*", "*"])

def RCR_POST_WORD : String := "registerContextRequest"
def DCAR_POST_WORD : String := "discoverContextAvailabilityRequest"
def SCAR_POST_WORD : String := "subscribeContextAvailabilityRequest"
def UCAR_POST_WORD : String := "unsubscribeContextAvailabilityRequest"
def UCAS_POST_WORD : String := "updateContextAvailabilitySubscriptionRequest"
def NCAR_POST_WORD : String := "notifyContextAvailabilityRequest"
def UPCR_POST_WORD : String := "updateContextRequest"
def QCR_POST_WORD : String := "queryContextRequest"
def SCR_POST_WORD : String := "subscribeContextRequest"
def UCSR_POST_WORD : String := "updateContextSubscriptionRequest"
def UNCR_POST_WORD : String := "unsubscribeContextRequest"
def NCR_POST_WORD : String := "notifyContextRequest"
def CE_POST_WORD : String := "registerProviderRequest"
def CEA_POST_WORD : String := "registerProviderRequest"
def CEAA_POST_WORD : String := "registerProviderRequest"
def CT_POST_WORD : String := "registerProviderRequest"
def CTA_POST_WORD : String := "registerProviderRequest"
def CTAA_POST_WORD : String := "registerProviderRequest"
def SCA_POST_WORD : String := "subscribeContextAvailabilityRequest"
def SCAS_PUT_WORD : String := "updateContextAvailabilitySubscriptionRequest"
def ICE_POST_WORD : String := "appendContextElementRequest"
def ICE_PUT_WORD : String := "updateContextElementRequest"
def ICEA_POST_WORD : String := "appendContextElementRequest"
def ICEA_PUT_WORD : String := "updateContextElementRequest"
def ICEAA_POST_WORD : String := "updateContextAttributeRequest"
def ICEAA_PUT_WORD : String := "updateContextAttributeRequest"
def AVI_PUT_WORD : String := "updateContextAttributeRequest"
def SC_POST_WORD : String := "subscribeContextRequest"
def SCS_PUT_WORD : String := "updateContextSubscriptionRequest"
def ACE_POST_WORD : String := "appendContextElementRequest"
def ACET_POST_WORD : String := "appendContextElementRequest"
def ACET_PUT_WORD : String := "updateContextElementRequest"
def ICEAAT_POST_WORD : String := "updateContextAttributeRequest"
def ICEAAT_PUT_WORD : String := "updateContextAttributeRequest"
def AVIT_PUT_WORD : String := "updateContextAttributeRequest"
def AVIT_POST_WORD : String := "updateContextAttributeRequest"
def CEET_POST_WORD : String := "registerProviderRequest"
def CEAAT_POST_WORD : String := "registerProviderRequest"

/-! ## Rows -/

def REGISTRY_STANDARD_REQUESTS_V0 : List RestService :=
  [row "POST" RCR_COMPS_V0 RCR_POST_WORD .postRegisterContext,
    row "*" RCR_COMPS_V0 RCR_POST_WORD .badVerbPostOnly,
    row "POST" DCAR_COMPS_V0 DCAR_POST_WORD .postDiscoverContextAvailability,
    row "*" DCAR_COMPS_V0 DCAR_POST_WORD .badVerbPostOnly,
    row "POST" SCAR_COMPS_V0 SCAR_POST_WORD .postSubscribeContextAvailability,
    row "*" SCAR_COMPS_V0 SCAR_POST_WORD .badVerbPostOnly,
    row "POST" UCAR_COMPS_V0 UCAR_POST_WORD .postUnsubscribeContextAvailability,
    row "*" UCAR_COMPS_V0 UCAR_POST_WORD .badVerbPostOnly,
    row "POST" UCAS_COMPS_V0 UCAS_POST_WORD .postUpdateContextAvailabilitySubscription,
    row "*" UCAS_COMPS_V0 UCAS_POST_WORD .badVerbPostOnly,
    row "POST" NCAR_COMPS_V0 NCAR_POST_WORD .postNotifyContextAvailability,
    row "*" NCAR_COMPS_V0 NCAR_POST_WORD .badVerbPostOnly]

def REGISTRY_STANDARD_REQUESTS_V1 : List RestService :=
  [row "POST" RCR_COMPS_V1 RCR_POST_WORD .postRegisterContext,
    row "*" RCR_COMPS_V1 RCR_POST_WORD .badVerbPostOnly,
    row "POST" DCAR_COMPS_V1 DCAR_POST_WORD .postDiscoverContextAvailability,
    row "*" DCAR_COMPS_V1 DCAR_POST_WORD .badVerbPostOnly,
    row "POST" SCAR_COMPS_V1 SCAR_POST_WORD .postSubscribeContextAvailability,
    row "*" SCAR_COMPS_V1 SCAR_POST_WORD .badVerbPostOnly,
    row "POST" UCAR_COMPS_V1 UCAR_POST_WORD .postUnsubscribeContextAvailability,
    row "*" UCAR_COMPS_V1 UCAR_POST_WORD .badVerbPostOnly,
    row "POST" UCAS_COMPS_V1 UCAS_POST_WORD .postUpdateContextAvailabilitySubscription,
    row "*" UCAS_COMPS_V1 UCAS_POST_WORD .badVerbPostOnly,
    row "POST" NCAR_COMPS_V1 NCAR_POST_WORD .postNotifyContextAvailability,
    row "*" NCAR_COMPS_V1 NCAR_POST_WORD .badVerbPostOnly]

def STANDARD_REQUESTS_V0 : List RestService :=
  [row "POST" UPCR_COMPS_V0 UPCR_POST_WORD .postUpdateContext,
    row "*" UPCR_COMPS_V0 UPCR_POST_WORD .badVerbPostOnly,
    row "POST" QCR_COMPS_V0 QCR_POST_WORD .postQueryContext,
    row "*" QCR_COMPS_V0 QCR_POST_WORD .badVerbPostOnly,
    row "POST" SCR_COMPS_V0 SCR_POST_WORD .postSubscribeContext,
    row "*" SCR_COMPS_V0 SCR_POST_WORD .badVerbPostOnly,
    row "POST" UCSR_COMPS_V0 UCSR_POST_WORD .postUpdateContextSubscription,
    row "*" UCSR_COMPS_V0 UCSR_POST_WORD .badVerbPostOnly,
    row "POST" UNCR_COMPS_V0 UNCR_POST_WORD .postUnsubscribeContext,
    row "*" UNCR_COMPS_V0 UNCR_POST_WORD .badVerbPostOnly,
    row "POST" NCR_COMPS_V0 NCR_POST_WORD .postNotifyContext,
    row "*" NCR_COMPS_V0 NCR_POST_WORD .badVerbPostOnly]

def STANDARD_REQUESTS_V1 : List RestService :=
  [row "POST" UPCR_COMPS_V1 UPCR_POST_WORD .postUpdateContext,
    row "*" UPCR_COMPS_V1 UPCR_POST_WORD .badVerbPostOnly,
    row "POST" QCR_COMPS_V1 QCR_POST_WORD .postQueryContext,
    row "*" QCR_COMPS_V1 QCR_POST_WORD .badVerbPostOnly,
    row "POST" SCR_COMPS_V1 SCR_POST_WORD .postSubscribeContext,
    row "*" SCR_COMPS_V1 SCR_POST_WORD .badVerbPostOnly,
    row "POST" UCSR_COMPS_V1 UCSR_POST_WORD .postUpdateContextSubscription,
    row "*" UCSR_COMPS_V1 UCSR_POST_WORD .badVerbPostOnly,
    row "POST" UNCR_COMPS_V1 UNCR_POST_WORD .postUnsubscribeContext,
    row "*" UNCR_COMPS_V1 UNCR_POST_WORD .badVerbPostOnly,
    row "POST" NCR_COMPS_V1 NCR_POST_WORD .postNotifyContext,
    row "*" NCR_COMPS_V1 NCR_POST_WORD .badVerbPostOnly]

def REGISTRY_CONVENIENCE_OPERATIONS_V0 : List RestService :=
  [row "GET" CE_COMPS_V0 "" .getContextEntitiesByEntityId,
    row "POST" CE_COMPS_V0 CE_POST_WORD .postContextEntitiesByEntityId,
    row "*" CE_COMPS_V0 "" .badVerbGetPostOnly,
    row "GET" CEA_COMPS_V0 "" .getContextEntityAttributes,
    row "POST" CEA_COMPS_V0 CEA_POST_WORD .postContextEntityAttributes,
    row "*" CEA_COMPS_V0 "" .badVerbGetPostOnly,
    row "GET" CEAA_COMPS_V0 "" .getEntityByIdAttributeByName,
    row "POST" CEAA_COMPS_V0 CEAA_POST_WORD .postEntityByIdAttributeByName,
    row "*" CEAA_COMPS_V0 "" .badVerbGetPostOnly,
    row "GET" CT_COMPS_V0 "" .getContextEntityTypes,
    row "POST" CT_COMPS_V0 CT_POST_WORD .postContextEntityTypes,
    row "*" CT_COMPS_V0 "" .badVerbGetPostOnly,
    row "GET" CTA_COMPS_V0 "" .getContextEntityTypes,
    row "POST" CTA_COMPS_V0 CTA_POST_WORD .postContextEntityTypes,
    row "*" CTA_COMPS_V0 "" .badVerbGetPostOnly,
    row "GET" CTAA_COMPS_V0 "" .getContextEntityTypeAttribute,
    row "POST" CTAA_COMPS_V0 CTAA_POST_WORD .postContextEntityTypeAttribute,
    row "*" CTAA_COMPS_V0 "" .badVerbGetPostOnly,
    row "POST" SCA_COMPS_V0 SCA_POST_WORD .postSubscribeContextAvailability,
    row "*" SCA_COMPS_V0 "" .badVerbPostOnly,
    row "PUT" SCAS_COMPS_V0 SCAS_PUT_WORD .putAvailabilitySubscriptionConvOp,
    row "DELETE" SCAS_COMPS_V0 "" .deleteAvailabilitySubscriptionConvOp,
    row "*" SCAS_COMPS_V0 "" .badVerbPutDeleteOnly]

def REGISTRY_CONVENIENCE_OPERATIONS_V1 : List RestService :=
  [row "GET" CE_COMPS_V1 "" .getContextEntitiesByEntityId,
    row "POST" CE_COMPS_V1 CE_POST_WORD .postContextEntitiesByEntityId,
    row "*" CE_COMPS_V1 "" .badVerbGetPostOnly,
    row "GET" CEA_COMPS_V1 "" .getContextEntityAttributes,
    row "POST" CEA_COMPS_V1 CEA_POST_WORD .postContextEntityAttributes,
    row "*" CEA_COMPS_V1 "" .badVerbGetPostOnly,
    row "GET" CEAA_COMPS_V1 "" .getEntityByIdAttributeByName,
    row "POST" CEAA_COMPS_V1 CEAA_POST_WORD .postEntityByIdAttributeByName,
    row "*" CEAA_COMPS_V1 "" .badVerbGetPostOnly,
    row "GET" CT_COMPS_V1 "" .getContextEntityTypes,
    row "POST" CT_COMPS_V1 CT_POST_WORD .postContextEntityTypes,
    row "*" CT_COMPS_V1 "" .badVerbGetPostOnly,
    row "GET" CTA_COMPS_V1 "" .getContextEntityTypes,
    row "POST" CTA_COMPS_V1 CTA_POST_WORD .postContextEntityTypes,
    row "*" CTA_COMPS_V1 "" .badVerbGetPostOnly,
    row "GET" CTAA_COMPS_V1 "" .getContextEntityTypeAttribute,
    row "POST" CTAA_COMPS_V1 CTAA_POST_WORD .postContextEntityTypeAttribute,
    row "*" CTAA_COMPS_V1 "" .badVerbGetPostOnly,
    row "POST" SCA_COMPS_V1 SCA_POST_WORD .postSubscribeContextAvailability,
    row "*" SCA_COMPS_V1 "" .badVerbPostOnly,
    row "PUT" SCAS_COMPS_V1 SCAS_PUT_WORD .putAvailabilitySubscriptionConvOp,
    row "DELETE" SCAS_COMPS_V1 "" .deleteAvailabilitySubscriptionConvOp,
    row "*" SCAS_COMPS_V1 "" .badVerbPutDeleteOnly]

def CONVENIENCE_OPERATIONS_V0 : List RestService :=
  [row "GET" ICE_COMPS_V0 "" .getIndividualContextEntity,
    row "PUT" ICE_COMPS_V0 ICE_PUT_WORD .putIndividualContextEntity,
    row "POST" ICE_COMPS_V0 ICE_POST_WORD .postIndividualContextEntity,
    row "DELETE" ICE_COMPS_V0 "" .deleteIndividualContextEntity,
    row "*" ICE_COMPS_V0 "" .badVerbAllFour,
    row "GET" ICEA_COMPS_V0 "" .getIndividualContextEntityAttributes,
    row "PUT" ICEA_COMPS_V0 ICEA_PUT_WORD .putIndividualContextEntityAttributes,
    row "POST" ICEA_COMPS_V0 ICEA_POST_WORD .postIndividualContextEntityAttributes,
    row "DELETE" ICEA_COMPS_V0 "" .deleteIndividualContextEntityAttributes,
    row "*" ICEA_COMPS_V0 "" .badVerbAllFour,
    row "GET" ICEAA_COMPS_V0 "" .getIndividualContextEntityAttribute,
    row "PUT" ICEAA_COMPS_V0 ICEAA_PUT_WORD .putIndividualContextEntityAttribute,
    row "POST" ICEAA_COMPS_V0 ICEAA_POST_WORD .postIndividualContextEntityAttribute,
    row "DELETE" ICEAA_COMPS_V0 "" .deleteIndividualContextEntityAttribute,
    row "*" ICEAA_COMPS_V0 "" .badVerbGetPostDeleteOnly,
    row "GET" AVI_COMPS_V0 "" .getAttributeValueInstance,
    row "PUT" AVI_COMPS_V0 AVI_PUT_WORD .putAttributeValueInstance,
    row "DELETE" AVI_COMPS_V0 "" .deleteAttributeValueInstance,
    row "*" AVI_COMPS_V0 "" .badVerbGetPutDeleteOnly,
    row "GET" CET_COMPS_V0 "" .getNgsi10ContextEntityTypes,
    row "*" CET_COMPS_V0 "" .badVerbGetOnly,
    row "GET" CETA_COMPS_V0 "" .getNgsi10ContextEntityTypes,
    row "*" CETA_COMPS_V0 "" .badVerbGetOnly,
    row "GET" CETAA_COMPS_V0 "" .getNgsi10ContextEntityTypesAttribute,
    row "*" CETAA_COMPS_V0 "" .badVerbGetOnly,
    row "POST" SC_COMPS_V0 SC_POST_WORD .postSubscribeContext,
    row "*" SC_COMPS_V0 "" .badVerbPostOnly,
    row "PUT" SCS_COMPS_V0 SCS_PUT_WORD .putSubscriptionConvOp,
    row "DELETE" SCS_COMPS_V0 "" .deleteSubscriptionConvOp,
    row "*" SCS_COMPS_V0 "" .badVerbPutDeleteOnly]

def CONVENIENCE_OPERATIONS_V1 : List RestService :=
  [row "GET" ICE_COMPS_V1 "" .getIndividualContextEntity,
    row "PUT" ICE_COMPS_V1 ICE_PUT_WORD .putIndividualContextEntity,
    row "POST" ICE_COMPS_V1 ICE_POST_WORD .postIndividualContextEntity,
    row "DELETE" ICE_COMPS_V1 "" .deleteIndividualContextEntity,
    row "*" ICE_COMPS_V1 "" .badVerbAllFour,
    row "GET" ICEA_COMPS_V1 "" .getIndividualContextEntityAttributes,
    row "PUT" ICEA_COMPS_V1 ICEA_PUT_WORD .putIndividualContextEntityAttributes,
    row "POST" ICEA_COMPS_V1 ICEA_POST_WORD .postIndividualContextEntityAttributes,
    row "DELETE" ICEA_COMPS_V1 "" .deleteIndividualContextEntityAttributes,
    row "*" ICEA_COMPS_V1 "" .badVerbAllFour,
    row "GET" ICEAA_COMPS_V1 "" .getIndividualContextEntityAttribute,
    row "PUT" ICEAA_COMPS_V1 ICEAA_PUT_WORD .putIndividualContextEntityAttribute,
    row "POST" ICEAA_COMPS_V1 ICEAA_POST_WORD .postIndividualContextEntityAttribute,
    row "DELETE" ICEAA_COMPS_V1 "" .deleteIndividualContextEntityAttribute,
    row "*" ICEAA_COMPS_V1 "" .badVerbGetPostDeleteOnly,
    row "GET" AVI_COMPS_V1 "" .getAttributeValueInstance,
    row "PUT" AVI_COMPS_V1 AVI_PUT_WORD .putAttributeValueInstance,
    row "DELETE" AVI_COMPS_V1 "" .deleteAttributeValueInstance,
    row "*" AVI_COMPS_V1 "" .badVerbGetPutDeleteOnly,
    row "GET" CET_COMPS_V1 "" .getNgsi10ContextEntityTypes,
    row "*" CET_COMPS_V1 "" .badVerbGetOnly,
    row "GET" CETA_COMPS_V1 "" .getNgsi10ContextEntityTypes,
    row "*" CETA_COMPS_V1 "" .badVerbGetOnly,
    row "GET" CETAA_COMPS_V1 "" .getNgsi10ContextEntityTypesAttribute,
    row "*" CETAA_COMPS_V1 "" .badVerbGetOnly,
    row "POST" SC_COMPS_V1 SC_POST_WORD .postSubscribeContext,
    row "*" SC_COMPS_V1 "" .badVerbPostOnly,
    row "PUT" SCS_COMPS_V1 SCS_PUT_WORD .putSubscriptionConvOp,
    row "DELETE" SCS_COMPS_V1 "" .deleteSubscriptionConvOp,
    row "*" SCS_COMPS_V1 "" .badVerbPutDeleteOnly,
    row "GET" ET_COMPS_V1 "" .getEntityTypes,
    row "*" ET_COMPS_V1 "" .badVerbGetOnly,
    row "GET" AFET_COMPS_V1 "" .getAttributesForEntityType,
    row "*" AFET_COMPS_V1 "" .badVerbGetOnly,
    row "GET" ACE_COMPS_V1 "" .getAllContextEntities,
    row "POST" ACE_COMPS_V1 ACE_POST_WORD .postIndividualContextEntity,
    row "*" ACE_COMPS_V1 "" .badVerbGetOnly,
    row "GET" ACET_COMPS_V1 "" .getAllEntitiesWithTypeAndId,
    row "POST" ACET_COMPS_V1 ACET_POST_WORD .postAllEntitiesWithTypeAndId,
    row "PUT" ACET_COMPS_V1 ACET_PUT_WORD .putAllEntitiesWithTypeAndId,
    row "DELETE" ACET_COMPS_V1 "" .deleteAllEntitiesWithTypeAndId,
    row "*" ACET_COMPS_V1 "" .badVerbAllFour,
    row "GET" ICEAAT_COMPS_V1 "" .getIndividualContextEntityAttributeWithTypeAndId,
    row "POST" ICEAAT_COMPS_V1 ICEAAT_POST_WORD .postIndividualContextEntityAttributeWithTypeAndId,
    row "PUT" ICEAAT_COMPS_V1 ICEAAT_PUT_WORD .putIndividualContextEntityAttributeWithTypeAndId,
    row "DELETE" ICEAAT_COMPS_V1 "" .deleteIndividualContextEntityAttributeWithTypeAndId,
    row "*" ICEAAT_COMPS_V1 "" .badVerbAllFour,
    row "GET" AVIT_COMPS_V1 "" .getAttributeValueInstanceWithTypeAndId,
    row "POST" AVIT_COMPS_V1 AVIT_POST_WORD .postAttributeValueInstanceWithTypeAndId,
    row "PUT" AVIT_COMPS_V1 AVIT_PUT_WORD .putAttributeValueInstanceWithTypeAndId,
    row "DELETE" AVIT_COMPS_V1 "" .deleteAttributeValueInstanceWithTypeAndId,
    row "*" AVIT_COMPS_V1 "" .badVerbAllFour,
    row "GET" CEET_COMPS_V1 "" .getContextEntitiesByEntityIdAndType,
    row "POST" CEET_COMPS_V1 CEET_POST_WORD .postContextEntitiesByEntityIdAndType,
    row "*" CEET_COMPS_V1 "" .badVerbGetPostOnly,
    row "GET" CEAAT_COMPS_V1 "" .getEntityByIdAttributeByNameWithTypeAndId,
    row "POST" CEAAT_COMPS_V1 CEAAT_POST_WORD .postEntityByIdAttributeByNameWithTypeAndId,
    row "*" CEAAT_COMPS_V1 "" .badVerbGetPostOnly]

def LOG_REQUESTS_V0 : List RestService :=
  [row "GET" LOGT_COMPS_V0 "" .logTraceTreat,
    row "DELETE" LOGT_COMPS_V0 "" .logTraceTreat,
    row "*" LOGT_COMPS_V0 "" .badVerbAllFour,
    row "PUT" LOGTL_COMPS_V0 "" .logTraceTreat,
    row "DELETE" LOGTL_COMPS_V0 "" .logTraceTreat,
    row "*" LOGTL_COMPS_V0 "" .badVerbAllFour,
    row "GET" LOG2T_COMPS_V0 "" .logTraceTreat,
    row "DELETE" LOG2T_COMPS_V0 "" .logTraceTreat,
    row "*" LOG2T_COMPS_V0 "" .badVerbAllFour,
    row "PUT" LOG2TL_COMPS_V0 "" .logTraceTreat,
    row "DELETE" LOG2TL_COMPS_V0 "" .logTraceTreat,
    row "*" LOG2TL_COMPS_V0 "" .badVerbAllFour]

def LOG_REQUESTS_V1 : List RestService :=
  [row "GET" LOGT_COMPS_V1 "" .logTraceTreat,
    row "DELETE" LOGT_COMPS_V1 "" .logTraceTreat,
    row "*" LOGT_COMPS_V1 "" .badVerbAllFour,
    row "PUT" LOGTL_COMPS_V1 "" .logTraceTreat,
    row "DELETE" LOGTL_COMPS_V1 "" .logTraceTreat,
    row "*" LOGTL_COMPS_V1 "" .badVerbAllFour,
    row "GET" LOG2T_COMPS_V1 "" .logTraceTreat,
    row "DELETE" LOG2T_COMPS_V1 "" .logTraceTreat,
    row "*" LOG2T_COMPS_V1 "" .badVerbAllFour,
    row "PUT" LOG2TL_COMPS_V1 "" .logTraceTreat,
    row "DELETE" LOG2TL_COMPS_V1 "" .logTraceTreat,
    row "*" LOG2TL_COMPS_V1 "" .badVerbAllFour]

def STAT_REQUESTS_V0 : List RestService :=
  [row "GET" STAT_COMPS_V0 "" .statisticsTreat,
    row "DELETE" STAT_COMPS_V0 "" .statisticsTreat,
    row "*" STAT_COMPS_V0 "" .badVerbGetDeleteOnly]

def STAT_REQUESTS_V1 : List RestService :=
  [row "GET" STAT_COMPS_V1 "" .statisticsTreat,
    row "DELETE" STAT_COMPS_V1 "" .statisticsTreat,
    row "*" STAT_COMPS_V1 "" .badVerbGetDeleteOnly]

def VERSION_REQUESTS : List RestService :=
  [row "GET" VERS_COMPS "" .versionTreat,
    row "*" VERS_COMPS "" .badVerbGetOnly]

def EXIT_REQUESTS : List RestService :=
  [row "GET" EXIT2_COMPS "" .exitTreat,
    row "GET" EXIT1_COMPS "" .exitTreat]

def LEAK_REQUESTS : List RestService :=
  [row "GET" LEAK2_COMPS "" .leakTreat,
    row "GET" LEAK1_COMPS "" .leakTreat]

def INVALID_REQUESTS : List RestService :=
  [row "*" INV9_COMPS "" .badNgsi9Request,
    row "*" INV10_COMPS "" .badNgsi10Request,
    row "*" INV_ALL_COMPS "" .badRequest]

/-! ## The tables -/

def restServiceV (debug : Bool) : List RestService :=
  REGISTRY_STANDARD_REQUESTS_V0 ++
  REGISTRY_STANDARD_REQUESTS_V1 ++
  STANDARD_REQUESTS_V0 ++
  STANDARD_REQUESTS_V1 ++
  REGISTRY_CONVENIENCE_OPERATIONS_V0 ++
  REGISTRY_CONVENIENCE_OPERATIONS_V1 ++
  CONVENIENCE_OPERATIONS_V0 ++
  CONVENIENCE_OPERATIONS_V1 ++
  LOG_REQUESTS_V0 ++
  LOG_REQUESTS_V1 ++
  STAT_REQUESTS_V0 ++
  STAT_REQUESTS_V1 ++
  VERSION_REQUESTS ++
  (if debug then EXIT_REQUESTS ++ LEAK_REQUESTS else []) ++
  INVALID_REQUESTS

def restServiceNgsi9 (debug : Bool) : List RestService :=
  REGISTRY_STANDARD_REQUESTS_V0 ++
  REGISTRY_STANDARD_REQUESTS_V1 ++
  REGISTRY_CONVENIENCE_OPERATIONS_V0 ++
  REGISTRY_CONVENIENCE_OPERATIONS_V1 ++
  LOG_REQUESTS_V0 ++
  LOG_REQUESTS_V1 ++
  STAT_REQUESTS_V0 ++
  STAT_REQUESTS_V1 ++
  VERSION_REQUESTS ++
  (if debug then EXIT_REQUESTS ++ LEAK_REQUESTS else []) ++
  INVALID_REQUESTS

/-- The table the broker is started with (contextBroker.cpp:1384). -/
def routeTable (ngsi9Only debug : Bool) : List RestService :=
  if ngsi9Only then restServiceNgsi9 debug else restServiceV debug

/-- The row for any number of components. -/
def catchAll : RestService := row "*" INV_ALL_COMPS "" .badRequest

/-- A row that names its components: as many as it says, and not more than nine. -/
def RestService.fixed (r : RestService) : Bool :=
  r.components == r.compV.length && decide (1 ≤ r.components) && decide (r.components ≤ 9)

theorem routeTable_fixed (ngsi9Only debug : Bool) :
    ((routeTable ngsi9Only debug).dropLast.all RestService.fixed) = true := by
  cases ngsi9Only <;> cases debug <;> decide

theorem routeTable_last (ngsi9Only debug : Bool) : (routeTable ngsi9Only debug).getLast? = some catchAll := by
  cases ngsi9Only <;> cases debug <;> rfl

/-- **The rows with their own components, and the catch-all behind them.** -/
theorem routeTable_eq (ngsi9Only debug : Bool) :
    routeTable ngsi9Only debug = (routeTable ngsi9Only debug).dropLast ++ [catchAll] :=
  (List.dropLast_append_getLast? catchAll (routeTable_last ngsi9Only debug)).symm

end OrionBroker.Rest
