import KiClash.Purchases

/-!
# The webhook verification of Lemon Squeezy

What verify_webhook of lemon_squeezy_handler.py makes of a payload and a signature that come
from the network. It should tell the signed events from everything else; it raises on a
signature that is not ASCII, and on a signed payload that is not UTF-8 or that json.loads
fails on otherwise than with a JSONDecodeError.
-/

namespace KiClash.WebhookVerification

open Purchases

variable (services : Services) (settings : Settings)

/-- The hexadecimal text of a SHA-256 digest. -/
def IsDigest (text : String) : Prop :=
  text.length=64 ∧ text.toList.all (fun c => c∈"0123456789abcdef".toList)=true

instance (text : String) : Decidable (IsDigest text) := inferInstanceAs (Decidable (_ ∧ _))

/-- No digest is empty. -/
theorem IsDigest.nonempty {text : String} (h : IsDigest text) : text≠"" := by
  rintro rfl
  cases h.1

/-- A digest is ASCII. -/
theorem IsDigest.ascii {text : String} (h : IsDigest text) :
    text.toList.all Char.isAscii=true := by
  refine List.all_eq_true.mpr fun c hc => ?_
  have hdigit : c∈"0123456789abcdef".toList := of_decide_eq_true (List.all_eq_true.mp h.2 c hc)
  have hascii : "0123456789abcdef".toList.all Char.isAscii=true := by decide
  exact List.all_eq_true.mp hascii c hdigit

/-- The event whose text the payload is. -/
def jsonObject (payload : ByteArray) : Option Value :=
  match String.fromUTF8? payload with
  | none => none
  | some text =>
    match services.loads text with
    | .ok (.dict items) => some (.dict items)
    | _ => none

/-- The signature of the payload. -/
def signatureOf (payload : ByteArray) : String :=
  services.hexdigest settings.lemonSqueezyWebhookSecret payload

/-- Verification returns, and it returns an event exactly if the payload is its text and has
been signed. -/
def Exact (payload : ByteArray) (signature : String) : Prop :=
  ∃ result,lemonVerifyWebhook services settings payload signature=.ok result ∧
    ∀ event,result=some event ↔
      signature=signatureOf services settings payload ∧ jsonObject services payload=some event

/-- The payload is a text, and json.loads parses it or finds that it is no JSON. -/
def Readable (payload : ByteArray) : Prop :=
  ∃ text,String.fromUTF8? payload=some text ∧
    ∀ failure,services.loads text=.error failure → failure=.jsonDecodeError

variable {services : Services} {settings : Settings} {payload : ByteArray} {signature : String}

/-- A signature that is not ASCII is not compared. -/
theorem verify_notAscii (hsecret : settings.lemonSqueezyWebhookSecret≠"")
    (h : signature.toList.all Char.isAscii=false) :
    lemonVerifyWebhook services settings payload signature=.error .typeError := by
  have hsignature : signature≠"" := by
    rintro rfl
    cases h
  simp only [lemonVerifyWebhook,if_neg hsecret,if_neg hsignature,h,Bool.not_false,if_true]

/-- Any other wrong signature is rejected. -/
theorem verify_unsigned (hascii : signature.toList.all Char.isAscii=true)
    (h : signature≠signatureOf services settings payload) :
    lemonVerifyWebhook services settings payload signature=.ok none := by
  have hwrong : services.hexdigest settings.lemonSqueezyWebhookSecret payload≠signature :=
    Ne.symm h
  unfold lemonVerifyWebhook
  by_cases hsecret : settings.lemonSqueezyWebhookSecret=""
  · exact if_pos hsecret
  · rw [if_neg hsecret]
    by_cases hempty : signature=""
    · exact if_pos hempty
    · rw [if_neg hempty,hascii,Bool.not_true,if_neg Bool.false_ne_true]
      exact if_pos hwrong

/-- A signed payload is decoded and parsed. -/
theorem verify_signed (hsecret : settings.lemonSqueezyWebhookSecret≠"")
    (hdigest : IsDigest (signatureOf services settings payload)) :
    lemonVerifyWebhook services settings payload (signatureOf services settings payload)=
      match String.fromUTF8? payload with
      | none => .error .valueError
      | some text =>
        match services.loads text with
        | .error .jsonDecodeError => .ok none
        | .error .valueError => .error .valueError
        | .error .recursionError => .error .recursionError
        | .ok (.dict items) => .ok (some (.dict items))
        | .ok _ => .ok none := by
  have hequal : ¬services.hexdigest settings.lemonSqueezyWebhookSecret payload≠
      signatureOf services settings payload := not_not.mpr rfl
  have hascii : ¬(!(signatureOf services settings payload).toList.all Char.isAscii)=true := by
    rw [hdigest.ascii]
    exact Bool.false_ne_true
  refine (if_neg hsecret).trans ?_
  refine (if_neg hdigest.nonempty).trans ?_
  refine (if_neg hascii).trans ?_
  exact (if_neg hequal).trans rfl

/-- A signed payload that can be read is accepted if it is an object. -/
theorem verify_readable (hsecret : settings.lemonSqueezyWebhookSecret≠"")
    (hdigest : IsDigest (signatureOf services settings payload)) (h : Readable services payload) :
    lemonVerifyWebhook services settings payload (signatureOf services settings payload)=
      .ok (jsonObject services payload) := by
  obtain ⟨text,htext,hfailure⟩ := h
  rw [verify_signed hsecret hdigest,jsonObject,htext]
  dsimp only
  cases hloads : services.loads text with
  | error failure =>
    cases hfailure failure hloads
    rfl
  | ok value => cases value <;> rfl

/-- Any other one makes verification raise. -/
theorem verify_unreadable (hsecret : settings.lemonSqueezyWebhookSecret≠"")
    (hdigest : IsDigest (signatureOf services settings payload))
    (h : ¬Readable services payload) : ∃ exc,
      lemonVerifyWebhook services settings payload (signatureOf services settings payload)=
        .error exc := by
  rw [verify_signed hsecret hdigest]
  cases htext : String.fromUTF8? payload with
  | none => exact ⟨_,rfl⟩
  | some text =>
    dsimp only
    cases hloads : services.loads text with
    | ok value =>
      refine absurd ⟨text,htext,fun failure he => ?_⟩ h
      cases hloads.symm.trans he
    | error failure =>
      cases failure with
      | jsonDecodeError =>
        refine absurd ⟨text,htext,fun failure he => ?_⟩ h
        cases hloads.symm.trans he
        rfl
      | valueError | recursionError => exact ⟨_,rfl⟩

/-- Verification with a secret is total and exact if and only if the signature is ASCII, and
the payload, if it has been signed, is a text that json.loads parses or finds to be no
JSON. -/
theorem exact_iff (services : Services) (settings : Settings) (payload : ByteArray)
    (signature : String) (hsecret : settings.lemonSqueezyWebhookSecret≠"")
    (hdigest : IsDigest (signatureOf services settings payload)) :
    Exact services settings payload signature ↔
      signature.toList.all Char.isAscii=true ∧
        (signature=signatureOf services settings payload → Readable services payload) := by
  constructor
  · rintro ⟨result,hresult,-⟩
    constructor
    · cases hascii : signature.toList.all Char.isAscii with
      | true => rfl
      | false =>
        rw [verify_notAscii hsecret hascii] at hresult
        cases hresult
    · rintro rfl
      by_contra hunreadable
      obtain ⟨exc,hraises⟩ := verify_unreadable hsecret hdigest hunreadable
      cases hraises.symm.trans hresult
  · rintro ⟨hascii,hreadable⟩
    by_cases hsigned : signature=signatureOf services settings payload
    · subst hsigned
      exact ⟨_,verify_readable hsecret hdigest (hreadable rfl),fun event => by simp⟩
    · exact ⟨none,verify_unsigned hascii hsigned,fun event => by simp [hsigned]⟩

/-- The secret test-secret, the payload that is an empty object and the single byte ff with
their signatures. -/
def testServices : Services where
  constructEvent _ _ _ := .error .other
  hexdigest _ payload :=
    if payload.data=#[0xff] then "5bfc4257e3001dcab6d36698846ee21520730441d2fd446b6990395b741f9e81"
    else "2f59040b63b7200598444239da2c9a4f3abc5c434259b23126d72514dab8cd09"
  loads text := if text="\x7b\x7d" then .ok (.dict []) else .error .jsonDecodeError
  shown _ := "\x7b\x7d"

/-- The settings with that secret. -/
def testSettings : Settings := ⟨"","test-secret",""⟩

/-- Its digests are digests. -/
theorem testServices_digests (secret : String) (payload : ByteArray) :
    IsDigest (testServices.hexdigest secret payload) := by
  unfold testServices
  dsimp only
  split <;> decide

/-- The signed empty object is verified exactly. -/
theorem emptyObject_exact : Exact testServices testSettings ⟨#[0x7b,0x7d]⟩
    "2f59040b63b7200598444239da2c9a4f3abc5c434259b23126d72514dab8cd09" := by
  refine (exact_iff testServices testSettings ⟨#[0x7b,0x7d]⟩ _ (by decide)
    (testServices_digests _ _)).mpr ⟨by decide,fun _ => ⟨"\x7b\x7d",by decide,?_⟩⟩
  intro failure hfailure
  cases hfailure

/-- A signature with an accent makes verification raise, and so does the signed byte ff. -/
theorem verification_raises : testSettings.lemonSqueezyWebhookSecret≠"" ∧
    (∀ secret payload,IsDigest (testServices.hexdigest secret payload)) ∧
    ¬Exact testServices testSettings ⟨#[0x7b,0x7d]⟩ "é" ∧
    ¬Exact testServices testSettings ⟨#[0xff]⟩
      "5bfc4257e3001dcab6d36698846ee21520730441d2fd446b6990395b741f9e81" := by
  have haccent : lemonVerifyWebhook testServices testSettings ⟨#[0x7b,0x7d]⟩ "é"=
      .error .typeError := by rfl
  have hbyte : lemonVerifyWebhook testServices testSettings ⟨#[0xff]⟩
      "5bfc4257e3001dcab6d36698846ee21520730441d2fd446b6990395b741f9e81"=
        .error .valueError := by rfl
  refine ⟨by decide,testServices_digests,?_,?_⟩
  · rintro ⟨result,hresult,-⟩
    cases haccent.symm.trans hresult
  · rintro ⟨result,hresult,-⟩
    cases hbyte.symm.trans hresult

end KiClash.WebhookVerification
