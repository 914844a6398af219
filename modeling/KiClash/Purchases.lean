import KiClash.Identifiers

/-!
# The webhooks of the purchases

app/api/v1/endpoints/purchases.py, the two handlers under app/core/payment and
payment_service.fulfill_ad_free_purchase: what a delivery makes of the players' ad-free
flags. The signature check of the Stripe SDK, HMAC-SHA256, json.loads and the text that
str makes of a list or a dict are parameters.
-/

namespace KiClash.Purchases

open EngineTypes Identifiers

section Values

/-- What json.loads returns. Of a number only its text and whether it is zero matter here. -/
inductive Value
  | null
  | bool (value : Bool)
  | number (text : String) (zero : Bool)
  | str (text : String)
  | list (elements : List Value)
  | dict (items : List (String×Value))

/-- The exceptions of the handlers. -/
inductive PyError
  | keyError | typeError | attributeError | valueError | recursionError | stripeError
  | databaseError
  deriving DecidableEq, Repr

namespace Value

/-- The value under a name; of equal names the last one counts. -/
def lookup (name : String) (items : List (String×Value)) : Option Value :=
  (items.reverse.find? (·.1=name)).map Prod.snd

/-- value.get(name, default). -/
def getOr (value : Value) (name : String) (default : Value) : Except PyError Value :=
  match value with
  | .dict items => .ok ((lookup name items).getD default)
  | _ => .error .attributeError

/-- value.get(name). -/
def get (value : Value) (name : String) : Except PyError Value := value.getOr name .null

/-- value[name]. -/
def item (value : Value) (name : String) : Except PyError Value :=
  match value with
  | .dict items =>
    match lookup name items with
    | some found => .ok found
    | none => .error .keyError
  | _ => .error .typeError

/-- value if isinstance(value, dict) else {}. -/
def orEmpty : Value → Value
  | .dict items => .dict items
  | _ => .dict []

/-- value == text. -/
def equals (text : String) : Value → Bool
  | .str text' => text'=text
  | _ => false

/-- bool(value). -/
def truthy : Value → Bool
  | .null => false
  | .bool value => value
  | .number _ zero => !zero
  | .str text => text≠""
  | .list elements => !elements.isEmpty
  | .dict items => !items.isEmpty

end Value

end Values

section Services

/-- How construct_event of the Stripe SDK fails. -/
inductive StripeFailure
  | signatureVerificationError | valueError | other
  deriving DecidableEq, Repr

/-- How json.loads fails. -/
inductive LoadsFailure
  | jsonDecodeError | valueError | recursionError
  deriving DecidableEq, Repr

/-- What the handlers use and do not define. -/
structure Services where
  /-- stripe.Webhook.construct_event of a payload, a header and a secret. -/
  constructEvent : ByteArray → String → String → Except StripeFailure Value
  /-- hmac.new(secret, payload, sha256).hexdigest(). -/
  hexdigest : String → ByteArray → String
  /-- json.loads. -/
  loads : String → Except LoadsFailure Value
  /-- str of a list or a dict. -/
  shown : Value → String

/-- The settings. -/
structure Settings where
  /-- The secret of the Stripe endpoint. -/
  stripeWebhookSecret : String
  /-- The secret of the Lemon Squeezy endpoint. -/
  lemonSqueezyWebhookSecret : String
  /-- The variant of the Founder Pass. -/
  lemonSqueezyFounderPassVariantId : String

variable (services : Services) (settings : Settings)

/-- str(value). -/
def str : Value → String
  | .null => "None"
  | .bool value => if value then "True" else "False"
  | .number text _ => text
  | .str text => text
  | .list elements => services.shown (.list elements)
  | .dict items => services.shown (.dict items)

/-- text.replace(part, ""), of which so many characters are still to be left out. -/
def without (part : List Char) : ℕ → List Char → List Char
  | _,[] => []
  | skip+1,_::chars => without part skip chars
  | 0,c::chars =>
    if part.isPrefixOf (c::chars) then without part (part.length-1) chars
    else c::without part 0 chars

/-- The UUID constructor on a text. -/
def uuid (text : String) : Option UUID := do
  let chars := without "uuid:".toList 0 (without "urn:".toList 0 text.toList)
  let brace := fun c : Char => c= '{' || c= '}'
  let stripped := ((chars.dropWhile brace).reverse.dropWhile brace).reverse
  let digits ← (stripped.filter (·≠ '-')).mapM hexDigit?
  if h : digits.length=32 then some ⟨digits,h⟩ else none

/-- StripeHandler.verify_webhook. -/
def stripeVerifyWebhook (payload : ByteArray) (sigHeader : String) :
    Except PyError (Option Value) :=
  match services.constructEvent payload sigHeader settings.stripeWebhookSecret with
  | .ok event => .ok (some event)
  | .error .signatureVerificationError => .ok none
  | .error .valueError => .ok none
  | .error .other => .error .stripeError

/-- LemonSqueezyHandler.verify_webhook. -/
def lemonVerifyWebhook (payload : ByteArray) (signature : String) :
    Except PyError (Option Value) :=
  if settings.lemonSqueezyWebhookSecret="" then .ok none
  else if signature="" then .ok none
  -- compare_digest refuses texts that are not ASCII
  else if !signature.toList.all Char.isAscii then .error .typeError
  else if services.hexdigest settings.lemonSqueezyWebhookSecret payload≠signature then .ok none
  else
    match String.fromUTF8? payload with
    | none => .error .valueError
    | some text =>
      match services.loads text with
      | .error .jsonDecodeError => .ok none
      -- an integer with more digits than int accepts
      | .error .valueError => .error .valueError
      | .error .recursionError => .error .recursionError
      | .ok (.dict items) => .ok (some (.dict items))
      | .ok _ => .ok none

end Services

section Orders

variable (services : Services) (settings : Settings)

/-- The player for whom stripe_webhook fulfils a verified event, if any. -/
def stripeOrder (event : Value) : Except PyError (Option UUID) := do
  let type ← event.item "type"
  if type.equals "checkout.session.completed" then
    let data ← event.item "data"
    let session ← data.item "object"
    let metadata ← session.getOr "metadata" (.dict [])
    let playerId ← metadata.get "player_id"
    let item ← metadata.get "item"
    if playerId.truthy && item.equals "ad_free_pass" then
      match playerId with
      | .str text =>
        match uuid text with
        | some playerId => .ok (some playerId)
        | none => .error .valueError
      | _ => .error .attributeError
    else .ok none
  else .ok none

/-- event.get(name) of an event that is a dict, and {} for anything that is not one. -/
def dictAt (name : String) (event : Value) : Value :=
  match event.get name with
  | .ok value => value.orEmpty
  | .error _ => .dict []

/-- _lemon_meta. -/
def lemonMeta (event : Value) : Value := dictAt "meta" event

/-- _lemon_attributes. -/
def lemonAttributes (event : Value) : Value := dictAt "attributes" (dictAt "data" event)

/-- _lemon_custom_data. -/
def lemonCustomData (event : Value) : Value := dictAt "custom_data" (lemonMeta event)

/-- The member of one of these. -/
def entry (name : String) (value : Value) : Value :=
  match value.get name with
  | .ok value => value
  | .error _ => .null

/-- _is_founder_pass_order. -/
def isFounderPassOrder (event : Value) : Bool :=
  let attributes := lemonAttributes event
  let firstItem := dictAt "first_order_item" attributes
  let variant := entry "variant_id" firstItem
  let variantId := if variant.truthy then str services variant else ""
  (entry "event_name" (lemonMeta event)).equals "order_created" &&
    (entry "status" attributes).equals "paid" &&
    settings.lemonSqueezyFounderPassVariantId≠"" &&
    variantId=settings.lemonSqueezyFounderPassVariantId

/-- The player for whom lemon_squeezy_webhook fulfils a verified event, if any. -/
def lemonOrder (event : Value) : Option UUID :=
  if !isFounderPassOrder services settings event then none
  else
    let customData := lemonCustomData event
    if !(entry "item" customData).equals "founder_pass" ||
        !(entry "entitlement" customData).equals "ad_free" then none
    else
      match entry "player_id" customData with
      | .str text => uuid text
      | _ => none

end Orders

section Deliveries

/-- A player's row. -/
structure Row where
  /-- The entitlement. -/
  adFree : Bool
  deriving DecidableEq, Repr

/-- The players. -/
abbrev Players := UUID → Option Row

/-- How the database fails. -/
inductive Fault
  | read | beforeCommit | afterCommit
  deriving DecidableEq, Repr

/-- The commit of a delivery takes effect. -/
def Commits (fault : Option Fault) : Prop := fault≠some .read ∧ fault≠some .beforeCommit

instance (fault : Option Fault) : Decidable (Commits fault) :=
  inferInstanceAs (Decidable (_ ∧ _))

/-- The endpoints. -/
inductive Provider
  | stripe | lemonSqueezy
  deriving DecidableEq, Repr

/-- A delivery to one of the webhooks. -/
structure Delivery where
  /-- The endpoint. -/
  provider : Provider
  /-- The body of the request. -/
  payload : ByteArray
  /-- The signature header, empty if there is none. -/
  signature : String
  /-- What the database does to it. -/
  fault : Option Fault

/-- The response. -/
structure Response where
  /-- The status code. -/
  statusCode : ℕ
  /-- The body. -/
  content : String
  deriving DecidableEq, Repr

/-- fulfill_ad_free_purchase. -/
def fulfillAdFreePurchase (fault : Option Fault) (playerId : UUID) (players : Players) :
    Players×Except PyError Bool :=
  if fault=some .read then (players,.error .databaseError)
  else
    match players playerId with
    | none => (players,.ok false)
    | some _ =>
      let players' := Function.update players playerId (some ⟨true⟩)
      match fault with
      | some .beforeCommit => (players,.error .databaseError)
      | some .afterCommit => (players',.error .databaseError)
      | _ => (players',.ok true)

variable (services : Services) (settings : Settings)

/-- The response once the order has been looked at. -/
def fulfilled (fault : Option Fault) (order : Option UUID) (players : Players) :
    Players×Except PyError Response :=
  match order with
  | none => (players,.ok ⟨200,"OK"⟩)
  | some playerId =>
    let (players,result) := fulfillAdFreePurchase fault playerId players
    (players,result.map fun _ => ⟨200,"OK"⟩)

/-- stripe_webhook. -/
def stripeWebhook (delivery : Delivery) (players : Players) : Players×Except PyError Response :=
  match stripeVerifyWebhook services settings delivery.payload delivery.signature with
  | .error exc => (players,.error exc)
  | .ok none => (players,.ok ⟨400,"Invalid signature"⟩)
  | .ok (some event) =>
    match stripeOrder event with
    | .error exc => (players,.error exc)
    | .ok order => fulfilled delivery.fault order players

/-- lemon_squeezy_webhook. -/
def lemonSqueezyWebhook (delivery : Delivery) (players : Players) :
    Players×Except PyError Response :=
  match lemonVerifyWebhook services settings delivery.payload delivery.signature with
  | .error exc => (players,.error exc)
  | .ok none => (players,.ok ⟨400,"Invalid signature"⟩)
  | .ok (some event) => fulfilled delivery.fault (lemonOrder services settings event) players

/-- A delivery to its endpoint. -/
def deliver (delivery : Delivery) (players : Players) : Players×Except PyError Response :=
  match delivery.provider with
  | .stripe => stripeWebhook services settings delivery players
  | .lemonSqueezy => lemonSqueezyWebhook services settings delivery players

/-- One delivery after another. -/
def run (deliveries : List Delivery) (players : Players) : Players :=
  deliveries.foldl (fun players delivery => (deliver services settings delivery players).1) players

end Deliveries

section Claims

variable (services : Services) (settings : Settings)

/-- The member of a member, if there is one. -/
def Value.at : List String → Value → Option Value
  | [],value => some value
  | name::path,value =>
    match value.item name with
    | .ok value => value.at path
    | .error _ => none

/-- At this path there is such a text. -/
def Value.Says (value : Value) (path : List String) (text : String) : Prop :=
  value.at path=some (.str text)

/-- A Stripe event states that the player's order of the ad-free pass has been paid. -/
structure StripePaid (event : Value) (playerId : UUID) : Prop where
  /-- The checkout is complete. -/
  type : event.Says ["type"] "checkout.session.completed"
  /-- It has been paid. -/
  paymentStatus : event.Says ["data","object","payment_status"] "paid"
  /-- The product. -/
  item : event.Says ["data","object","metadata","item"] "ad_free_pass"
  /-- The player. -/
  player : ∃ text,event.Says ["data","object","metadata","player_id"] text ∧
    uuid text=some playerId

/-- A Lemon Squeezy event states that the player's order of the Founder Pass has been paid. -/
structure LemonPaid (event : Value) (playerId : UUID) : Prop where
  /-- An order has been placed. -/
  eventName : event.Says ["meta","event_name"] "order_created"
  /-- It has been paid. -/
  status : event.Says ["data","attributes","status"] "paid"
  /-- The product. -/
  variant : settings.lemonSqueezyFounderPassVariantId≠"" ∧
    ∃ variant,event.at ["data","attributes","first_order_item","variant_id"]=some variant ∧
      str services variant=settings.lemonSqueezyFounderPassVariantId
  /-- The item. -/
  item : event.Says ["meta","custom_data","item"] "founder_pass"
  /-- The entitlement. -/
  entitlement : event.Says ["meta","custom_data","entitlement"] "ad_free"
  /-- The player. -/
  player : ∃ text,event.Says ["meta","custom_data","player_id"] text ∧ uuid text=some playerId

/-- The delivery is authenticated, and its event states that the player's order has been
paid. The relation says what Stripe has signed with the secret. -/
def Paid (signed : ByteArray → String → String → Prop) (delivery : Delivery) (playerId : UUID) :
    Prop :=
  match delivery.provider with
  | .stripe => signed delivery.payload delivery.signature settings.stripeWebhookSecret ∧
    ∃ event,services.constructEvent delivery.payload delivery.signature
        settings.stripeWebhookSecret=.ok event ∧ StripePaid event playerId
  | .lemonSqueezy => settings.lemonSqueezyWebhookSecret≠"" ∧
    services.hexdigest settings.lemonSqueezyWebhookSecret delivery.payload=delivery.signature ∧
    ∃ text event,String.fromUTF8? delivery.payload=some text ∧ services.loads text=.ok event ∧
      LemonPaid services settings event playerId

/-- A flag that a delivery sets is the effect of an authentic one that states a payment. -/
def GrantsPaid (signed : ByteArray → String → String → Prop) (players : Players)
    (delivery : Delivery) : Prop :=
  ∀ playerId,players playerId≠some ⟨true⟩ →
    (deliver services settings delivery players).1 playerId=some ⟨true⟩ →
    Paid services settings signed delivery playerId

/-- A verified checkout of the ad-free pass that completes for a player who does not have
it, and whose commit takes effect, has been paid. -/
def Collected (players : Players) (delivery : Delivery) : Prop :=
  delivery.provider=.stripe →
    Commits delivery.fault →
    ∀ event playerId,services.constructEvent delivery.payload delivery.signature
        settings.stripeWebhookSecret=.ok event →
      stripeOrder event=.ok (some playerId) → players playerId=some ⟨false⟩ →
      event.Says ["data","object","payment_status"] "paid"

/-- The same of every delivery of a list and of the players that it finds. -/
def Throughout (test : Players → Delivery → Prop) (deliveries : List Delivery)
    (players : Players) : Prop :=
  ∀ earlier delivery later,deliveries=earlier++delivery::later →
    test (run services settings earlier players) delivery

/-- A delivery that has been handled without a failure changes nothing when it is
repeated, whatever comes in between. -/
def Repeatable (players : Players) : Prop :=
  ∀ (earlier : List Delivery) (delivery : Delivery) (between : List Delivery)
    (fault : Option Fault),delivery.fault=none →
    run services settings (earlier++delivery::between++[{delivery with fault := fault}]) players=
      run services settings (earlier++delivery::between) players

end Claims

section Paths

variable {value found : Value} {name : String} {path : List String}

/-- A path starts with a member. -/
theorem at_cons (h : value.item name=.ok found) : value.at (name::path)=found.at path := by
  simp only [Value.at,h]

/-- What get finds is a member, or the default. -/
theorem item_of_getOr {default : Value} (h : value.getOr name default=.ok found) :
    found=default ∨ value.item name=.ok found := by
  cases value with
  | dict items =>
    simp only [Value.getOr,Except.ok.injEq] at h
    simp only [Value.item]
    cases hfind : Value.lookup name items with
    | none =>
      rw [hfind] at h
      exact .inl h.symm
    | some item =>
      rw [hfind] at h
      exact .inr (congrArg Except.ok h)
  | _ => cases h

/-- A value that equals a text is that text. -/
theorem str_of_equals {text : String} (h : value.equals text=true) : value=.str text := by
  cases value with
  | str text' => rw [of_decide_eq_true h]
  | _ => cases h

/-- A member that is not None is there. -/
theorem item_of_entry (h : entry name value=found) (hfound : found≠.null) :
    value.item name=.ok found := by
  unfold entry at h
  split at h
  · next value' hget =>
    subst h
    exact (item_of_getOr hget).resolve_left hfound
  · exact absurd h.symm hfound

/-- So is the member of a section. -/
theorem at_of_section {event : Value} (h : (dictAt name event).at path=some found)
    (hpath : path≠[]) : event.at (name::path)=some found := by
  unfold dictAt at h
  split at h
  · next value' hget =>
    cases value' with
    | dict items =>
      have hitem := (item_of_getOr hget).resolve_left nofun
      exact (at_cons hitem).trans h
    | _ =>
      cases path with
      | nil => exact absurd rfl hpath
      | cons name path => cases h
  · cases path with
    | nil => exact absurd rfl hpath
    | cons name path => cases h

/-- The member at the end of a path. -/
theorem at_of_entry (h : entry name value=found) (hfound : found≠.null) :
    value.at [name]=some found := at_cons (item_of_entry h hfound)

end Paths

section Proofs

variable {services : Services} {settings : Settings}

/-- The player for whom a delivery is fulfilled. -/
def order (services : Services) (settings : Settings) (delivery : Delivery) : Option UUID :=
  match delivery.provider with
  | .stripe =>
    match services.constructEvent delivery.payload delivery.signature
        settings.stripeWebhookSecret with
    | .ok event =>
      match stripeOrder event with
      | .ok order => order
      | .error _ => none
    | .error _ => none
  | .lemonSqueezy =>
    match lemonVerifyWebhook services settings delivery.payload delivery.signature with
    | .ok (some event) => lemonOrder services settings event
    | _ => none

/-- What a delivery makes of the players. -/
theorem deliver_players (delivery : Delivery) (players : Players) :
    (deliver services settings delivery players).1=
      match order services settings delivery with
      | some playerId => (fulfillAdFreePurchase delivery.fault playerId players).1
      | none => players := by
  unfold deliver order
  cases delivery.provider with
  | stripe =>
    simp only [stripeWebhook,stripeVerifyWebhook]
    cases services.constructEvent delivery.payload delivery.signature
        settings.stripeWebhookSecret with
    | error failure => cases failure <;> rfl
    | ok event =>
      dsimp only
      cases stripeOrder event with
      | error exc => rfl
      | ok order => cases order <;> rfl
  | lemonSqueezy =>
    simp only [lemonSqueezyWebhook]
    cases lemonVerifyWebhook services settings delivery.payload delivery.signature with
    | error exc => rfl
    | ok event =>
      cases event with
      | none => rfl
      | some event =>
        dsimp only
        cases lemonOrder services settings event <;> rfl

/-- What fulfilling an order makes of the players. -/
theorem fulfill_players (fault : Option Fault) (playerId : UUID) (players : Players) :
    (fulfillAdFreePurchase fault playerId players).1=
      if (players playerId).isSome ∧ Commits fault then
        Function.update players playerId (some ⟨true⟩)
      else players := by
  unfold fulfillAdFreePurchase
  cases players playerId with
  | none => split <;> simp
  | some row => rcases fault with _ | _ | _ | _ <;> simp [Commits]

/-- A flag turns true exactly for the player of the order, if he is there without it and
the commit takes effect. -/
theorem granted_iff (delivery : Delivery) (players : Players) (playerId : UUID) :
    (players playerId≠some ⟨true⟩ ∧
        (deliver services settings delivery players).1 playerId=some ⟨true⟩) ↔
      order services settings delivery=some playerId ∧ players playerId=some ⟨false⟩ ∧
        Commits delivery.fault := by
  rw [deliver_players]
  cases horder : order services settings delivery with
  | none =>
    constructor
    · exact fun h => absurd h.2 h.1
    · exact fun h => nomatch h.1
  | some other =>
    dsimp only
    rw [fulfill_players]
    constructor
    · rintro ⟨hbefore,hafter⟩
      split at hafter
      · next hfound =>
        by_cases hsame : playerId=other
        · subst hsame
          refine ⟨rfl,?_,hfound.2⟩
          obtain ⟨row,hrow⟩ := Option.isSome_iff_exists.mp hfound.1
          obtain ⟨adFree⟩ := row
          cases adFree with
          | true => exact absurd hrow hbefore
          | false => exact hrow
        · rw [Function.update_of_ne hsame] at hafter
          exact absurd hafter hbefore
      · exact absurd hafter hbefore
    · rintro ⟨hsame,hrow,hcommits⟩
      cases hsame
      rw [if_pos ⟨by rw [hrow]; rfl,hcommits⟩,Function.update_self,hrow]
      exact ⟨by simp,rfl⟩

/-- A computation that returns has returned at its first step. -/
theorem ok_of_bind {α β : Type} {x : Except PyError α} {f : α → Except PyError β} {b : β}
    (h : x >>= f=.ok b) : ∃ a,x=.ok a ∧ f a=.ok b := by
  cases x with
  | error exc => cases h
  | ok a => exact ⟨a,rfl,h⟩

/-- What stripe_webhook has seen when it fulfils an event. -/
theorem stripeOrder_says {event : Value} {playerId : UUID}
    (h : stripeOrder event=.ok (some playerId)) :
    event.Says ["type"] "checkout.session.completed" ∧
      event.Says ["data","object","metadata","item"] "ad_free_pass" ∧
      ∃ text,event.Says ["data","object","metadata","player_id"] text ∧
        uuid text=some playerId := by
  obtain ⟨type,htype,h⟩ := ok_of_bind h
  split at h
  · next hcompleted =>
    obtain ⟨data,hdata,h⟩ := ok_of_bind h
    obtain ⟨session,hsession,h⟩ := ok_of_bind h
    obtain ⟨metadata,hmetadata,h⟩ := ok_of_bind h
    obtain ⟨player,hplayer,h⟩ := ok_of_bind h
    obtain ⟨item,hitem,h⟩ := ok_of_bind h
    have hpath : ∀ {name : String} {text : String},metadata.get name=.ok (.str text) →
        event.Says ["data","object","metadata",name] text := by
      intro name text hget
      have hname := (item_of_getOr hget).resolve_left nofun
      have hfound := (item_of_getOr hmetadata).resolve_left fun he => by
        rw [he] at hname
        cases hname
      exact (at_cons hdata).trans ((at_cons hsession).trans
        ((at_cons hfound).trans (at_cons hname)))
    split at h
    · next hboth =>
      rw [Bool.and_eq_true] at hboth
      rw [str_of_equals hboth.2] at hitem
      cases player with
      | str text =>
        dsimp only at h
        split at h
        · next playerId' huuid =>
          cases h
          refine ⟨?_,hpath hitem,text,hpath hplayer,huuid⟩
          rw [str_of_equals hcompleted] at htype
          exact at_cons htype
        · cases h
      | _ => cases h
    · cases h
  · cases h

/-- What lemon_squeezy_webhook has seen when it fulfils an event. -/
theorem lemonOrder_paid {event : Value} {playerId : UUID}
    (h : lemonOrder services settings event=some playerId) :
    LemonPaid services settings event playerId := by
  have hmeta : ∀ {name : String} {text : String},
      (entry name (lemonMeta event)).equals text=true → event.Says ["meta",name] text := by
    intro name text hequals
    exact at_of_section (at_of_entry (str_of_equals hequals) nofun) nofun
  have hcustom : ∀ {name : String} {text : String},
      entry name (lemonCustomData event)=.str text → event.Says ["meta","custom_data",name] text := by
    intro name text hentry
    exact at_of_section (at_of_section (at_of_entry hentry nofun) nofun) nofun
  unfold lemonOrder at h
  split at h
  · cases h
  · next hfounder =>
    rw [Bool.not_eq_true',Bool.not_eq_false] at hfounder
    dsimp only at h
    split at h
    · cases h
    · next hitems =>
      simp only [Bool.or_eq_true,Bool.not_eq_true',not_or,Bool.not_eq_false] at hitems
      split at h
      · next text htext =>
        simp only [isFounderPassOrder,Bool.and_eq_true,decide_eq_true_eq] at hfounder
        obtain ⟨⟨⟨hname,hstatus⟩,hset⟩,hvariant⟩ := hfounder
        refine ⟨hmeta hname,?_,⟨hset,?_⟩,hcustom (str_of_equals hitems.1),
          hcustom (str_of_equals hitems.2),text,hcustom htext,h⟩
        · exact at_of_section (at_of_section (at_of_entry (str_of_equals hstatus) nofun) nofun) nofun
        · split at hvariant
          · next htruthy =>
            refine ⟨_,at_of_section (at_of_section (at_of_section (at_of_entry rfl ?_) nofun) nofun)
              nofun,hvariant⟩
            intro hnull
            have hvariant' : entry "variant_id" (dictAt "first_order_item" (lemonAttributes event))=
                .null := hnull
            rw [hvariant'] at htruthy
            cases htruthy
          · exact absurd hvariant.symm hset
      · cases h

/-- What Lemon Squeezy's verification has checked. -/
theorem lemonVerifyWebhook_some {payload : ByteArray} {signature : String} {event : Value}
    (h : lemonVerifyWebhook services settings payload signature=.ok (some event)) :
    settings.lemonSqueezyWebhookSecret≠"" ∧
      services.hexdigest settings.lemonSqueezyWebhookSecret payload=signature ∧
      ∃ text,String.fromUTF8? payload=some text ∧ services.loads text=.ok event := by
  unfold lemonVerifyWebhook at h
  split at h
  · cases h
  · next hsecret =>
    split at h
    · cases h
    · split at h
      · cases h
      · split at h
        · cases h
        · next hdigest =>
          split at h
          · cases h
          · next text htext =>
            split at h
            · cases h
            · cases h
            · cases h
            · next items hloads =>
              cases h
              exact ⟨hsecret,not_not.mp hdigest,text,htext,hloads⟩
            · cases h

/-- A delivery grants only what has been paid exactly if it is no unpaid checkout. -/
theorem grantsPaid_iff {signed : ByteArray → String → String → Prop}
    (hsound : ∀ payload header event,
      services.constructEvent payload header settings.stripeWebhookSecret=.ok event →
        signed payload header settings.stripeWebhookSecret)
    (players : Players) (delivery : Delivery) :
    GrantsPaid services settings signed players delivery ↔
      Collected services settings players delivery := by
  constructor
  · intro h hprovider hcommits event playerId hevent horder hrow
    have hgranted : order services settings delivery=some playerId := by
      simp only [order,hprovider,hevent,horder]
    obtain ⟨hbefore,hafter⟩ := (granted_iff delivery players playerId).mpr ⟨hgranted,hrow,hcommits⟩
    have hpaid := h playerId hbefore hafter
    simp only [Paid,hprovider] at hpaid
    obtain ⟨-,event',hevent',hpaid⟩ := hpaid
    cases hevent.symm.trans hevent'
    exact hpaid.paymentStatus
  · intro h playerId hbefore hafter
    obtain ⟨hgranted,hrow,hcommits⟩ := (granted_iff delivery players playerId).mp ⟨hbefore,hafter⟩
    unfold order at hgranted
    unfold Paid
    cases hprovider : delivery.provider with
    | stripe =>
      rw [hprovider] at hgranted
      dsimp only at hgranted ⊢
      split at hgranted
      · next event hevent =>
        split at hgranted
        · next order horder =>
          subst hgranted
          obtain ⟨htype,hitem,hplayer⟩ := stripeOrder_says horder
          have hstatus := h hprovider hcommits event playerId hevent horder hrow
          exact ⟨hsound _ _ _ hevent,event,hevent,⟨htype,hstatus,hitem,hplayer⟩⟩
        · cases hgranted
      · cases hgranted
    | lemonSqueezy =>
      rw [hprovider] at hgranted
      dsimp only at hgranted ⊢
      split at hgranted
      · next event hevent =>
        obtain ⟨hsecret,hdigest,text,htext,hloads⟩ := lemonVerifyWebhook_some hevent
        exact ⟨hsecret,hdigest,text,event,htext,hloads,lemonOrder_paid hgranted⟩
      · cases hgranted

/-- The player has the flag, or is not there. -/
def Settled (playerId : UUID) (players : Players) : Prop :=
  players playerId=none ∨ players playerId=some ⟨true⟩

/-- No delivery takes a flag back, or adds a player. -/
theorem Settled.deliver {playerId : UUID} {players : Players} (h : Settled playerId players)
    (delivery : Delivery) : Settled playerId (deliver services settings delivery players).1 := by
  rw [deliver_players]
  cases order services settings delivery with
  | none => exact h
  | some other =>
    dsimp only
    rw [fulfill_players]
    split
    · next hfound =>
      by_cases hsame : playerId=other
      · subst hsame
        exact .inr (Function.update_self _ _ _)
      · rw [Settled,Function.update_of_ne hsame]
        exact h
    · exact h

/-- Nor do many of them. -/
theorem Settled.run {playerId : UUID} {players : Players} (h : Settled playerId players)
    (deliveries : List Delivery) : Settled playerId (run services settings deliveries players) := by
  induction deliveries generalizing players with
  | nil => exact h
  | cons delivery deliveries ih => exact ih (h.deliver delivery)

/-- A delivery without a failure settles its order. -/
theorem settled_of_order {delivery : Delivery} {playerId : UUID}
    (horder : order services settings delivery=some playerId) (hfault : delivery.fault=none)
    (players : Players) : Settled playerId (deliver services settings delivery players).1 := by
  rw [deliver_players,horder]
  dsimp only
  rw [fulfill_players,hfault]
  split
  · exact .inr (Function.update_self _ _ _)
  · next hnone =>
    left
    cases hrow : players playerId with
    | none => rfl
    | some row => exact absurd ⟨by rw [hrow]; rfl,nofun,nofun⟩ hnone

/-- An order that is settled changes nothing. -/
theorem deliver_of_settled {delivery : Delivery} {players : Players}
    (h : ∀ playerId,order services settings delivery=some playerId → Settled playerId players) :
    (deliver services settings delivery players).1=players := by
  rw [deliver_players]
  cases horder : order services settings delivery with
  | none => rfl
  | some playerId =>
    dsimp only
    rw [fulfill_players]
    split
    · next hfound =>
      obtain hnone | htrue := h playerId horder
      · rw [hnone] at hfound
        cases hfound.1
      · rw [←htrue]
        exact Function.update_eq_self playerId players
    · rfl

/-- Deliveries can be repeated. -/
theorem repeatable (players : Players) : Repeatable services settings players := by
  intro earlier delivery between fault hfault
  have hsame : order services settings {delivery with fault := fault}=
      order services settings delivery := rfl
  rw [run,List.foldl_append]
  refine deliver_of_settled fun playerId horder => ?_
  rw [hsame] at horder
  rw [List.foldl_append]
  exact (settled_of_order horder hfault _).run between

/-- In every sequence of deliveries each flag that is set is the effect of an authentic
delivery that states the payment, and repeated deliveries change nothing, exactly if no
verified checkout that completes unpaid finds its player without the flag. -/
theorem granted_for_paid_iff {signed : ByteArray → String → String → Prop}
    (hsound : ∀ payload header event,
      services.constructEvent payload header settings.stripeWebhookSecret=.ok event →
        signed payload header settings.stripeWebhookSecret)
    (deliveries : List Delivery) (players : Players) :
    (Throughout services settings (GrantsPaid services settings signed) deliveries players ∧
        Repeatable services settings players) ↔
      Throughout services settings (Collected services settings) deliveries players := by
  constructor
  · intro h earlier delivery later hsplit
    exact (grantsPaid_iff hsound _ delivery).mp (h.1 earlier delivery later hsplit)
  · intro h
    refine ⟨fun earlier delivery later hsplit => ?_,repeatable players⟩
    exact (grantsPaid_iff hsound _ delivery).mpr (h earlier delivery later hsplit)

end Proofs

section Examples

/-- A checkout of the ad-free pass that completes for player 1. -/
def checkout (paymentStatus : String) : Value :=
  .dict [("type",.str "checkout.session.completed"),
    ("data",.dict [("object",.dict [("payment_status",.str paymentStatus),
      ("metadata",.dict [("player_id",.str "00000000-0000-0000-0000-000000000001"),
        ("item",.str "ad_free_pass")])])])]

/-- The body of the request that says so. -/
def checkoutBody (paymentStatus : String) : ByteArray :=
  ("\x7b\"type\":\"checkout.session.completed\",\"data\":\x7b\"object\":" ++
    "\x7b\"payment_status\":\"" ++ paymentStatus ++ "\",\"metadata\":" ++
    "\x7b\"player_id\":\"00000000-0000-0000-0000-000000000001\"," ++
    "\"item\":\"ad_free_pass\"\x7d\x7d\x7d\x7d").toUTF8

/-- Stripe has signed the body of this checkout with this header. -/
def checkoutSigned (paymentStatus : String) (payload : ByteArray) (header secret : String) : Prop :=
  payload=checkoutBody paymentStatus ∧ header="t=1,v1=5257a869" ∧ secret="whsec"

instance (paymentStatus : String) (payload : ByteArray) (header secret : String) :
    Decidable (checkoutSigned paymentStatus payload header secret) :=
  inferInstanceAs (Decidable (_ ∧ _ ∧ _))

/-- An SDK that has seen only this signature. -/
def checkoutServices (paymentStatus : String) : Services where
  constructEvent payload header secret :=
    if checkoutSigned paymentStatus payload header secret then .ok (checkout paymentStatus)
    else .error .signatureVerificationError
  hexdigest _ _ := "5257a869"
  loads _ := .error .jsonDecodeError
  shown _ := "[]"

/-- The settings with a secret for Stripe only. -/
def checkoutSettings : Settings := ⟨"whsec","",""⟩

/-- The delivery of the checkout. -/
def checkoutDelivery (paymentStatus : String) : Delivery :=
  ⟨.stripe,checkoutBody paymentStatus,"t=1,v1=5257a869",none⟩

/-- Player 1 has not got the flag. -/
def onePlayer : Players := fun playerId => if playerId=.small 1 then some ⟨false⟩ else none

section Checkout

variable {paymentStatus : String}

/-- Its signature check is sound. -/
theorem checkout_sound (payload : ByteArray) (header : String) (event : Value)
    (h : (checkoutServices paymentStatus).constructEvent payload header
      checkoutSettings.stripeWebhookSecret=.ok event) :
    checkoutSigned paymentStatus payload header checkoutSettings.stripeWebhookSecret ∧
      event=checkout paymentStatus := by
  simp only [checkoutServices] at h
  split at h
  · next hsigned =>
    cases h
    exact ⟨hsigned,rfl⟩
  · cases h

/-- The delivery is verified. -/
theorem checkout_event : (checkoutServices paymentStatus).constructEvent
    (checkoutBody paymentStatus) "t=1,v1=5257a869" checkoutSettings.stripeWebhookSecret=
      .ok (checkout paymentStatus) :=
  if_pos ⟨rfl,rfl,rfl⟩

/-- It is one for player 1. -/
theorem checkout_order : stripeOrder (checkout paymentStatus)=.ok (some (.small 1)) := by
  rfl

end Checkout

/-- A paid checkout grants player 1 the flag. -/
theorem paid_checkout_grants :
    run (checkoutServices "paid") checkoutSettings [checkoutDelivery "paid"] onePlayer (.small 1)=
        some ⟨true⟩ ∧
      Throughout (checkoutServices "paid") checkoutSettings
        (GrantsPaid (checkoutServices "paid") checkoutSettings (checkoutSigned "paid"))
        [checkoutDelivery "paid"] onePlayer ∧
      Repeatable (checkoutServices "paid") checkoutSettings onePlayer := by
  have horder : order (checkoutServices "paid") checkoutSettings (checkoutDelivery "paid")=
      some (.small 1) := by
    simp only [order,checkoutDelivery,checkout_event,checkout_order]
  have hgranted := (granted_iff (checkoutDelivery "paid") onePlayer (.small 1)).mpr
    ⟨horder,rfl,nofun,nofun⟩
  refine ⟨hgranted.2,?_⟩
  refine (granted_for_paid_iff (fun payload header event hevent =>
    (checkout_sound payload header event hevent).1) [checkoutDelivery "paid"] onePlayer).mpr ?_
  intro earlier delivery later hsplit hprovider hcommits event playerId hevent _ _
  rw [(checkout_sound _ _ event hevent).2]
  rfl

/-- A checkout that completes unpaid does so, too. -/
theorem unpaid_checkout_grants : ¬∀ (services : Services) (settings : Settings)
    (signed : ByteArray → String → String → Prop),
    (∀ payload header event,
      services.constructEvent payload header settings.stripeWebhookSecret=.ok event →
        signed payload header settings.stripeWebhookSecret) →
    ∀ (deliveries : List Delivery) (players : Players),
      Throughout services settings (GrantsPaid services settings signed) deliveries players ∧
        Repeatable services settings players := by
  intro h
  have hgrants : GrantsPaid (checkoutServices "unpaid") checkoutSettings (checkoutSigned "unpaid")
      onePlayer (checkoutDelivery "unpaid") := (h (checkoutServices "unpaid") checkoutSettings (checkoutSigned "unpaid")
    (fun payload header event hevent => (checkout_sound payload header event hevent).1)
    [checkoutDelivery "unpaid"] onePlayer).1 [] (checkoutDelivery "unpaid") [] rfl
  have horder : order (checkoutServices "unpaid") checkoutSettings (checkoutDelivery "unpaid")=
      some (.small 1) := by
    simp only [order,checkoutDelivery,checkout_event,checkout_order]
  obtain ⟨hbefore,hafter⟩ := (granted_iff (checkoutDelivery "unpaid") onePlayer (.small 1)).mpr
    ⟨horder,rfl,nofun,nofun⟩
  have hstated := hgrants (.small 1) hbefore hafter
  simp only [Paid,checkoutDelivery] at hstated
  obtain ⟨-,event,hevent,hpaid⟩ := hstated
  rw [(checkout_sound _ _ event hevent).2] at hpaid
  have hstatus := hpaid.paymentStatus
  simp [Value.Says,Value.at,Value.item,Value.lookup,checkout] at hstatus

end Examples

end KiClash.Purchases
