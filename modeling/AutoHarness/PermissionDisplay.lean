import AutoHarness.BridgeActor
import AutoHarness.FallibleRun
import AutoHarness.SecurityText
import AutoHarness.Value

namespace AutoHarness

open Client (validateId validateText validateSecurityText PermissionDetail PermissionRequest)

section Views

/-- A tool-call identity that the application composed: any text but the empty one. -/
structure ToolCallKey where
  value : String
  nonEmpty : value.isEmpty = false

theorem ToolCallKey.value_inj {left right : ToolCallKey} :
    left.value = right.value ↔ left = right := by
  cases left
  cases right
  simp

instance : DecidableEq ToolCallKey := fun _ _ => decidable_of_iff _ ToolCallKey.value_inj

structure PermissionDetailView where
  label : String
  value : String
deriving DecidableEq

structure PermissionRequestView where
  toolCallId : ToolCallKey
  toolName : String
  capability : String
  resource : String
  details : List PermissionDetailView
deriving DecidableEq

end Views

section Mapping

def clientIdentity (field value : String) : Except GuiIpcError (Client.Identity field) :=
  match h : validateId field value with
  | .ok () => .ok ⟨value, h⟩
  | .error _ => .error .invalidProjection

def mapPermissionDetail (detail : PermissionDetailView) : Except GuiIpcError PermissionDetail :=
  let mapped : PermissionDetail := ⟨securityDisplaySafe detail.label, securityDisplaySafe detail.value⟩
  match mapped.validate with
  | .ok () => .ok mapped
  | .error _ => .error .invalidProjection

/-- One permission request of `map_session`. -/
def mapPermissionRequest (request : PermissionRequestView) : Except GuiIpcError PermissionRequest := do
  let details ← request.details.mapM mapPermissionDetail
  let toolCallId ← clientIdentity "tool_call_id" request.toolCallId.value
  let mapped : PermissionRequest :=
    ⟨toolCallId, securityDisplaySafe request.toolName, securityDisplaySafe request.capability,
      securityDisplaySafe request.resource, details⟩
  match mapped.validate with
  | .ok () => .ok mapped
  | .error _ => .error .invalidProjection

end Mapping

section Faithful

theorem clientIdentity_value {field value : String} {identity : Client.Identity field}
    (h : clientIdentity field value = .ok identity) : identity.value = value := by
  unfold clientIdentity at h
  split at h
  · cases h
    rfl
  · cases h

theorem mapPermissionDetail_eq {detail : PermissionDetailView} {mapped : PermissionDetail}
    (h : mapPermissionDetail detail = .ok mapped) :
    mapped = ⟨securityDisplaySafe detail.label, securityDisplaySafe detail.value⟩ := by
  simp only [mapPermissionDetail] at h
  split at h
  · exact (Except.ok.inj h).symm
  · cases h

theorem mapPermissionDetail_injective {x y : PermissionDetailView} {mapped : PermissionDetail}
    (hx : mapPermissionDetail x = .ok mapped) (hy : mapPermissionDetail y = .ok mapped) : x = y := by
  have h := (mapPermissionDetail_eq hx).symm.trans (mapPermissionDetail_eq hy)
  simp only [PermissionDetail.mk.injEq] at h
  have hlabel : x.label = y.label := securityDisplaySafe_injective h.1
  have hvalue : x.value = y.value := securityDisplaySafe_injective h.2
  cases x
  cases y
  simp_all

/-- What a mapped request is made of. -/
theorem mapPermissionRequest_eq {view : PermissionRequestView} {request : PermissionRequest}
    (h : mapPermissionRequest view = .ok request) :
    view.details.mapM mapPermissionDetail = .ok request.details ∧
    request.toolCallId.value = view.toolCallId.value ∧
    request.toolName = securityDisplaySafe view.toolName ∧
    request.capability = securityDisplaySafe view.capability ∧
    request.resource = securityDisplaySafe view.resource := by
  unfold mapPermissionRequest at h
  obtain ⟨details, hd, h⟩ := FallibleRun.bind_eq_ok_iff.mp h
  obtain ⟨toolCallId, hi, h⟩ := FallibleRun.bind_eq_ok_iff.mp h
  simp only at h
  split at h
  · cases h
    exact ⟨hd, clientIdentity_value hi, rfl, rfl, rfl⟩
  · cases h

/-- The request that the client shows determines the one that is pending. -/
theorem mapPermissionRequest_injective {x y : PermissionRequestView} {request : PermissionRequest}
    (hx : mapPermissionRequest x = .ok request) (hy : mapPermissionRequest y = .ok request) :
    x = y := by
  obtain ⟨dx, ix, nx, cx, rx⟩ := mapPermissionRequest_eq hx
  obtain ⟨dy, iy, ny, cy, ry⟩ := mapPermissionRequest_eq hy
  have hdetails : x.details = y.details :=
    FallibleRun.mapM_injective (fun _ _ _ => mapPermissionDetail_injective) dx dy
  have hid : x.toolCallId.value = y.toolCallId.value := ix.symm.trans iy
  have hname : x.toolName = y.toolName := securityDisplaySafe_injective (nx.symm.trans ny)
  have hcapability : x.capability = y.capability := securityDisplaySafe_injective (cx.symm.trans cy)
  have hresource : x.resource = y.resource := securityDisplaySafe_injective (rx.symm.trans ry)
  obtain ⟨⟨_, _⟩, _, _, _, _⟩ := x
  obtain ⟨⟨_, _⟩, _, _, _, _⟩ := y
  simp_all

/-- Past the length bound nothing of an escaped text is refused. -/
theorem validateSecurityText_displaySafe (field text : String) (maxBytes : Nat) :
    validateSecurityText field (securityDisplaySafe text) maxBytes =
      validateText field (securityDisplaySafe text) maxBytes := by
  have hsafe : (securityDisplaySafe text).toList.any Client.isUnsafeDisplayControl = false :=
    securityDisplaySafe_safe text
  unfold validateSecurityText
  rw [hsafe]
  cases validateText field (securityDisplaySafe text) maxBytes with
  | error e => rfl
  | ok u => rfl

theorem permission_text_faithful :
    Function.Injective securityDisplaySafe ∧
    (∀ text, containsUnsafeDisplayControl (securityDisplaySafe text) = false) ∧
    (∀ text, containsUnsafeDisplayControl text = false → '\\' ∉ text.toList →
      securityDisplaySafe text = text) ∧
    (∀ field text maxBytes, validateSecurityText field (securityDisplaySafe text) maxBytes =
      validateText field (securityDisplaySafe text) maxBytes) ∧
    ∀ view request, mapPermissionRequest view = .ok request →
      request.resource = securityDisplaySafe view.resource ∧
      ∀ other shown, mapPermissionRequest other = .ok shown →
        (shown.resource = request.resource → other.resource = view.resource) ∧
        (shown = request → other = view) := by
  refine ⟨securityDisplaySafe_injective, securityDisplaySafe_safe,
    fun _ => securityDisplaySafe_self, validateSecurityText_displaySafe, ?_⟩
  intro view request h
  have hresource : request.resource = securityDisplaySafe view.resource :=
    (mapPermissionRequest_eq h).2.2.2.2
  refine ⟨hresource, fun other shown ho => ⟨fun he => ?_, fun he => ?_⟩⟩
  · have hother : shown.resource = securityDisplaySafe other.resource :=
      (mapPermissionRequest_eq ho).2.2.2.2
    exact securityDisplaySafe_injective (hother.symm.trans (he.trans hresource))
  · exact mapPermissionRequest_injective (he ▸ ho) h

def hiddenView : PermissionRequestView :=
  ⟨⟨"call-1", rfl⟩, "read", "filesystem read", "src/\u202egpj.exe", [⟨"path", "a\\u\x7b202e\x7db"⟩]⟩

def hiddenRequest : PermissionRequest :=
  ⟨⟨"call-1", rfl⟩, "read", "filesystem read", "src/\\u\x7b202e\x7dgpj.exe",
    [⟨"path", "a\\\\u\x7b202e\x7db"⟩]⟩

theorem hiddenView_mapped : mapPermissionRequest hiddenView = .ok hiddenRequest := by
  decide

theorem permission_text_faithful_hidden :
    hiddenRequest.resource = securityDisplaySafe "src/\u202egpj.exe" ∧
      securityDisplaySafe "src/main.rs" = "src/main.rs" :=
  ⟨(permission_text_faithful.2.2.2.2 hiddenView hiddenRequest hiddenView_mapped).1,
    permission_text_faithful.2.2.1 "src/main.rs" (by decide +kernel) (by decide)⟩

end Faithful

end AutoHarness
