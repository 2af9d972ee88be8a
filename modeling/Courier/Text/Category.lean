set_option autoImplicit false

/-!
# Kinds of characters

A table of runs covers all code points in order. A run is a letter for the kind, followed by the length of the run in
base 36 unless it is one: `V` visible, `W` visible but a variant that folds to other characters, `M` a mark that takes
no room, `C` a mark that takes room, `H` hidden (controls, formats, separators and surrogates), `U` not assigned or
private.
-/

namespace Courier.Text

inductive Kind where
  | visible
  | variant
  | mark
  | spacingMark
  | hidden
  | unassigned
  deriving DecidableEq, Repr

def Kind.ofLetter (c : Char) : Kind :=
  if c = 'V' then .visible
  else if c = 'W' then .variant
  else if c = 'M' then .mark
  else if c = 'C' then .spacingMark
  else if c = 'H' then .hidden
  else .unassigned

def digit36 (c : Char) : Nat :=
  let n := c.val.toNat
  if 48 ≤ n ∧ n ≤ 57 then n - 48 else n - 87

/-- Reads a table of runs: capital letters with lengths. The run under way is the first argument. -/
def readRuns (letter : Char) (length : Option Nat) : List Char → List (Char × Nat)
  | [] => [(letter, length.getD 1)]
  | c :: r =>
    if c.isUpper then (letter, length.getD 1) :: readRuns c none r
    else readRuns letter (some (length.getD 0 * 36 + digit36 c)) r

def letterAt (n : Nat) : List (Char × Nat) → Char
  | [] => 'U'
  | (k, len) :: r => if n < len then k else letterAt (n - len) r

def kindTable : String := String.join [
  "HwV2nHyV7WVWV2HVWV2W4V2W3VW3VWnVW7VxWVWVWVWVWVWVWVWVWVWVWVWVWVWVWVWVWVWVWVWVWVWVWVWVWVW3VWV2WVWVWVW3VWVWVWVW2V",
  "WVWVWVWVWVWVWVWVWVWVWVWVWVWVWVWVWVWVWVWVWVWVW2VWVWVWVW2VWVW2VW3V2W4VW2VW3V3W2VW2VWVWVW2VWV2WVW2VW3VWVW2V3WV7Wa",
  "VWVWVWVWVWVWVWV2WVWVWVWVWVWVWVWVWV2W4VW3VWVWVWVWVWVWVWVWVWVWVWVWVWVWVWVWVWVWVWVWVWVWVWVWVWVWVWVWVWV7W2VW2V2WVW",
  "4VWVWVWVWV2pW9VvW6V2W5VrM34WVWVWVWVU2WV3W2U4W7UWUW2VWhUW9VzW8VWVWVWVWVWVWVWVWVWVWVWVWVW3VW2VWVW2V2W1fV1cWVWVWV",
  "WVWVWVWVWVWVWVWVWVWVWVWVWVWV2M7WVWVWVWVWVWVWVWVWVWVWVWVWVWVWVWVWVWVWVWVWVWVWVWVWVWVWVW2VWVWVWVWVWVWV2WVWVWVWVW",
  "VWVWVWVWVWVWVWVWVWVWVWVWVWVWVWVWVWVWVWVWVWVWVWVWVWVWVWVWVWVWVWVWVWVWVWVWVWVWVWVWVWVWVWVUW12U2V1aWV3U2V3UM19VMV",
  "M2VM2VMU8VrU4V6UbH6VaMbVHV1aMlVgMV4W4V2lM7HVM6V2M2VM4VwUHVMVuMrU2V2hMbVUeV17M9V7U2MVoM4VM9VM3VM5U2VfUVpM3U2VUV",
  "bU5VvUH2U6M8V16MoHMwCV1iMCMVC3M8C4MC2VM7W8V2M2VtMC2UV8U2V2U2VmUV7UVU3V4U2MVC3M4U2C2U2C2MVU8CU4W2UWV2M2U2VoMU2M",
  "2CUV6U4V2U2VmUV7UVWUVWUV2U2MUC3M2U4M2U2M3U3MU7W3VUWU7VaM2V3MVUaM2CUV9UV3UVmUV7UV2UV5U2MVC3M5UM2CUC2MU2VUfV2M2U",
  "2VcU7VM6UMC2UV8U2V2U2VmUV7UV2UV5U2MVCMCM4U2C2U2C2MU7M2CU4W2UV3M2U2ViUaMVUV6U3V3UV4U3V2UVUV2U3V2U3V3U3VcU4C2MC2",
  "U3C3UC3MU2VU6CUeVlU5MC3MV8UV3UVnUVgU2MVM3C4UM3UM4U7M2UV3U2VU2V2M2U2VaU7VaMC2V9UV3UVnUVaUV5U2MVCMC5UMC2UC2M2U7C",
  "2U6V2UV2M2U2VaUV2UdM2C2V9UV3UV15M2VC3M4UC3UC3MV2U4V3CVaM2U2VqUMC2UViU3VoUV9UVU2V7U3MU4C3M3UMUC8U6VaU2C2VUcV1cM",
  "VWM7U4V8M8VdU11V2UVUV5UVoUVUVaMVWM9VU2V5UVUM6U2VaU2W2V2UwVcWVbM2VrMVMVMV4C2V3WV4UV4WV4WV4WV4WVcWV3U4MeCM5VM2V5",
  "MbUM10UV8MV6UVdU11V17C2M4CM6CM2C2M2VnC2M2V4M3VC3V2C7V3M4VdMC2M2C6MVCVaC3MV2W12UWU5WU2V18WV98UV4U2V7UVUV4U2V15U",
  "V4U2VxUV4U2V7UVUV4U2VfUV1lUV4U2V1vU2M3VtU3VqU6V2eU2W6U2VhsHVsU3V2hU7ViM3CU9VjM2CV2U9ViM2UcVdUV3UM2UcV1gM2CM7C8",
  "MC2MbV9MU2VaU6VaU6VbM3HMVaU6V2hU7V5M2VyMVU5V1yUaVvUM3C4M2C3U4C2MC6M3U4VU3V16U2V5UbV18U4VqU6VbU3V1lM2C2MU2V1jCM",
  "CM7UMCMC2M8C6MaU2MVaU6VaU6VeU2MvU1dM4CV1bMCM5CMC5MC2V8U3VrM9VbUM2CVuCM4C2M2CM3V1kMCM2C3MCM3C2U8V14C8M8C2M2U3Vf",
  "U3V1fW9U7W17U2W3V8U8M3VMdCM7V4MV6MV2CM2VU5V18W3VWbVWiVWsVdWVyW11M1sWVWVWVWVWVWVWVWVWVWVWVWVWVWVWVWVWVWVWVWVWVW",
  "VWVWVWVWVWVWVWVWVWVWVWVWVWVWVWVWVWVWVWVWVWVWVWVWVWVWVWVWVWVWVWVWVWVWVWVWVWVWVWVWVWVWVWVWVWVWVWVWVWVWVWVWVWV5W2",
  "V2WVWVWVWVWVWVWVWVWVWVWVWVWVWVWVWVWVWVWVWVWVWVWVWVWVWVWVWVWVWVWVWVWVWVWVWVWVWVWVWVWVWVWVWVWVWVWVWVWV9W8V6U2W6U",
  "2V8W8V8W8V6U2W6U2V8UWUWUWUWV8W8VWVWVWVWVWVWVWU2W1cV2W3UVWeUVW9V3WU2V2W4UW3V3WV4W8U2W3UVW8UHgVWV5WVcW3VH8V3W2VW",
  "2V4WVWV8W3VdWV7H6UHaW2U2WrUWdU3V8WVoUfMxUfW4VW3VWbVW2V2W5V2W3VWVWVWVW4VWbVW6V4W5V6W1cV3WV5WV2U4V4cW2VW2V6wW2V7",
  "0UpVbUlW3vV10hWV2vW3V2tWV47U2VwUV2xW1cV1cWVW3V2WVWVWVW4VWV2WV6W5VWVWVWVWVWVWVWVWVWVWVWVWVWVWVWVWVWVWVWVWVWVWVW",
  "VWVWVWVWVWVWVWVWVWVWVWVWVWVWVWVWVWVWVWVWVWVWVWVWVWVWV8WVWVM3WVU5V19UVU5VU2V1kU7WVUeMVnU9V7UV7UV7UV7UV7UV7UV7UV",
  "7UMwV2mUyVqUV4WV2bWUcW5yUqVcU4HV15M4C2V6WVW3V5UV2eU2M2W2V2WV2nWU5V17UW2mUV2WeV1wUcVgWvUW14V8W1bVWaoVm8dU3V1jU9",
  "V9oUkWVWVWVWVWVWVWVWVWVWVWVWVWVWVWVWVWVWVWVWVWVWVWV2M4VMaV2WVWVWVWVWVWVWVWVWVWVWVWVWVWVW2M2V28M2V6U8VyWVWVWVWV",
  "WVWVWV3WVWVWVWVWVWVWVWVWVWVWVWVWVWVWVWVWVWVWVWVWVWVWVWVWVWVWVWVWVWVWVWV8WVWVW2VWVWVWVWV4WVWV2WVWV3WVWVWVWVWVWV",
  "WVWVWVWVW5VW5VWVWVWVWVWVWVWVW4VWVU5WVUVUVWVWVUoW4V2W2V8MV3MV4MVnC2M2CV4MU3VaU6V1kU8C2V1eCgM2U8VcU6MiVdMV12M8Vp",
  "MbC2UbVuU3M3CV1bMC2M4C2M2C3VdUVbU4V7MVpUV15M6C2M2C2M2U9V3MV8MCU2VaU2VvCMCV1eMVM3V2M2V5M2VMVUoVgCM2C2V5CMUaV6U2",
  "V6U2V6U9V7UV7UV18W4V9WV2U4W28VzC2MC2MC2VCMU2VaU6V8mcUcVnU4V1dU4H1kwU4xsW7iV2WVWV2WaVWVWV2W2V3W1wU2W2yU12W7UcW5",
  "U5WMWoUW5UWUW2UW2UW30VhUgWa3ViW1sU2W1iU7VUwWdV3MgWaU6MgWlV2WcUWjUW4U4W3VWUW3rU2HUW5aU3W6U2W6U2W6U2W3U3W7UW7UaH",
  "3V2U2VcUVqUVjUV2UVfU2VeUyV3fU5V3U4V19U3V2gUVdU3VU1bV19MU3mVtU3V1dUfMVrU4V10U9VuU5V12M5U5VuUV11U4VeU16W14V3aU2V",
  "aU6W10U4V10U4V14U8V1gUbVWbUWfUW7UW2UVbUVfUV7UV2U1vV8nU9VmUaV8UoVW5UW16UW9U1xV6U2VUV18UV2U3VU2VnUV20U8V9U1cVjUV",
  "2U5VxU3VrU5VU1sV1kU4VkU2V1bM3UM2U5M4V4UV3UVtU2M3U4MV9U7V9U7V1sUwV11M2U4VcU9V1iU3VtU2VrU5VqU7V4UcV7U28V21U1jW1f",
  "UdV1fU7V16M4U8VaU86VvUV16UM2VU2V2U26V14U8VmMbV9UmViM4V4U12VsUkVnU9CMCV1hMfV7U4VuMV2M2VU9M3CV19C3M4C2M2V2HV4MUa",
  "HU2VpU7VaU6M3V10M5CM8UVfC2VU8VzMV3U9M2CV1cC3M9C2V8M4VCMVgUVkUbViUVpC3M3C2MCM2V6MU1tV7UVUV4UVfUVbU6V1bMC3M8U5Va",
  "U6M2C2UV8U2V2U2VmUV7UV2UV5UM2VC2MC4U2C2U2C3U2VU6CU5V5C2U2M7U3M5U3vV1hC3M8C2M3CMVlUVMV3UuV1cC3M6CMC4M2CM2V4U8Va",
  "U4mV1bC3M4U2C4M2CM2VrM2UyV1cC3M8C2MCM2V4UbVaU6VdUjV17MCMC2M6CMV2U6VaU1iVrU2M3C2M4CM5U4VnU55V18C3M9CM2VU2sWwV1f",
  "UcV8U2VU2V8UV2UVoC6UC2U2M2CMVCVCMV3U9VaU1yV8U2V13C3M4U2M2C4MV3CUrVMaV14M6CVM4V8MU8VM6C2M3V1aMdCM2V9UdV21U7bV9U",
  "V11CM7UM6CMV6UaVtU3VwU2MmUCM7CM2CM2U21V7UV2UV12M6U3MUM2UM7VMU8VaU6V6UV2UVwC5UM2UC2MCMVU7VaU8mVjM2C2V2U53VUfV1e",
  "UdVpnU2uV33UV5UbV5gU218V2rUdVtrUH9U347Vg7U6ntVftU7VvUVaU4V29UVaU6VuU2M5VUaV1cM7VfUaVaUV7UVlU5VjUj4WwV1nU2tV23U",
  "4MVC1jU7M4VdU1sV4MUbC2UeV4qgU8VyeU16V9U6w7V4UV7UV2UV83U19V3UhV4U8Vb0U1s4V2zU5VdU3V9U7VaU2VM2VH4U3mkM1aU2MnU9V3",
  "8U1oV6uUaV13U2V1hW7C2M3V3C6H8M8V2M7VuM4VdW6V16UlV1uM3VU4aVkUcV2fU9VpU3rW2dUW1zUW2U2WU2W2U2W4UWcUWUW7UW1tUW4U2W",
  "8UW7UWsUW4UW5UWU3W7UW9gU2W84U2W1eVe8M1jV4M1eV8MVeMV7UfM5UMfUuoVvU69M7UMhU2M7UM2UM5U5xV19U3M7V7U2VaU4V2U8wVuMUh",
  "V18M4VaU5VUyoV7UV4UV2UVfUV5hU2V9M7U15WyVyM7VU4VaU4V2UltV1wU24V1pU5eW4UWrUW2UWU2WUWaUW4UWUWU6WU4WUWUWUW3UW2UWU2",
  "WUWUWUWUWUW2UWU2W4UW7UW4UW4UWUWaUWhU5W3UW5UWhU1gV2U7iV18U4V2sUcVfU2VfUVfUV11UaWbV5WvVWwVqW3VzWVtU1kVqW3UdW18U4",
  "W9U7W2UeV6U4aVrcU5VgU3VdU3V38UcV2hU7VcU4VUfVcU4V1kU8VaU6V14U8VuU2V2U26V9gUcVeU2V5U3V5U3V7U9VtU3VbU5V6UaVaU6V8U",
  "8V7U9V43UV1jU11WaUsmVwyoUwV37dU7V66U2V4g2UeV5rlU2e7Wf2U15uV3t7UfcfqHUuH2oU3kM6oU47bk"]

def kindRuns : List (Char × Nat) := readRuns 'H' (some 0) kindTable.toList

def kind (c : Char) : Kind :=
  if 32 ≤ c.val.toNat ∧ c.val.toNat < 127 then .visible else .ofLetter (letterAt c.val.toNat kindRuns)

def isVisible (c : Char) : Bool :=
  match kind c with
  | .hidden | .unassigned => false
  | _ => true

def isExtending (c : Char) : Bool := kind c == .mark

def isMark (c : Char) : Bool := kind c == .mark || kind c == .spacingMark

end Courier.Text
