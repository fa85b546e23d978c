import PadlockCloud.Go.Http

/-!
# Devices

`device.go`: the device data that a client sends in its headers, how a stored
device is refreshed from a later request, and the description that mails and
the dashboard show.
-/

namespace PadlockCloud

/-- The display names of `IOS_DEVICES`, by model. -/
def iosDevices : List (String × String) :=
  [
    ("iPhone1,1", "iPhone"),
    ("iPhone1,2", "iPhone 3G"),
    ("iPhone2,1", "iPhone 3GS"),
    ("iPhone3,1", "iPhone 4"),
    ("iPhone3,2", "iPhone 4"),
    ("iPhone3,3", "iPhone 4"),
    ("iPhone4,1", "iPhone 4S"),
    ("iPhone5,1", "iPhone 5"),
    ("iPhone5,2", "iPhone 5"),
    ("iPhone5,3", "iPhone 5C"),
    ("iPhone5,4", "iPhone 5C"),
    ("iPhone6,1", "iPhone 5S"),
    ("iPhone6,2", "iPhone 5S"),
    ("iPhone7,1", "iPhone 6 Plus"),
    ("iPhone7,2", "iPhone 6"),
    ("iPhone8,1", "iPhone 6S"),
    ("iPhone8,2", "iPhone 6S Plus"),
    ("iPhone8,3", "iPhone SE"),
    ("iPhone8,4", "iPhone SE"),
    ("iPhone9,1", "iPhone 7"),
    ("iPhone9,2", "iPhone 7 Plus"),
    ("iPhone9,3", "iPhone 7"),
    ("iPhone9,4", "iPhone 7 Plus"),
    ("iPod1,1", "iPod touch (1st Gen)"),
    ("iPod2,1", "iPod touch (2nd Gen)"),
    ("iPod3,1", "iPod touch (3rd Gen)"),
    ("iPod4,1", "iPod touch (4th Gen)"),
    ("iPod5,1", "iPod touch (5th Gen)"),
    ("iPod7,1", "iPod touch (6th Gen)"),
    ("iPad1,1", "iPad (1st Gen)"),
    ("iPad1,2", "iPad (1st Gen)"),
    ("iPad2,1", "iPad (2nd Gen)"),
    ("iPad2,2", "iPad (2nd Gen)"),
    ("iPad2,3", "iPad (2nd Gen)"),
    ("iPad2,4", "iPad (2nd Gen)"),
    ("iPad2,5", "iPad mini (1st Gen)"),
    ("iPad2,6", "iPad mini (1st Gen)"),
    ("iPad2,7", "iPad mini (1st Gen)"),
    ("iPad3,1", "iPad (3rd Gen)"),
    ("iPad3,2", "iPad (3rd Gen)"),
    ("iPad3,3", "iPad (3rd Gen)"),
    ("iPad3,4", "iPad (4th Gen)"),
    ("iPad3,5", "iPad (4th Gen)"),
    ("iPad3,6", "iPad (4th Gen)"),
    ("iPad4,1", "iPad Air (1st Gen)"),
    ("iPad4,2", "iPad Air (1st Gen)"),
    ("iPad4,3", "iPad Air"),
    ("iPad4,4", "iPad mini (2nd Gen)"),
    ("iPad4,5", "iPad mini (2nd Gen)"),
    ("iPad4,6", "iPad mini (2nd Gen)"),
    ("iPad4,7", "iPad mini (3rd Gen)"),
    ("iPad4,8", "iPad mini (3rd Gen)"),
    ("iPad4,9", "iPad mini (3rd Gen)"),
    ("iPad5,1", "iPad mini (4th Gen)"),
    ("iPad5,2", "iPad mini (4th Gen)"),
    ("iPad5,3", "iPad Air (2nd Gen)"),
    ("iPad5,4", "iPad Air (2nd Gen)"),
    ("iPad6,3", "iPad Pro 9.7\""),
    ("iPad6,4", "iPad Pro 9.7\""),
    ("iPad6,7", "iPad Pro 12.9\" (1st Gen)"),
    ("iPad6,8", "iPad Pro 12.9\" (1st Gen))"),
    ("iPad6,11", "iPad (5th Gen)"),
    ("iPad6,12", "iPad (5th Gen)"),
    ("iPad7,1", "iPad Pro 12.9\" (2nd Gen)"),
    ("iPad7,2", "iPad Pro 12.9\" (2nd Gen)"),
    ("iPad7,3", "iPad Pro 10.5\""),
    ("iPad7,4", "iPad Pro 10.5\"")
  ]

/-- A lookup in `IOS_DEVICES`. -/
def iosDevice (model : GoString) : Option GoString :=
  (iosDevices.find? fun entry => lit entry.1 = model).map fun entry => lit entry.2

/-- `PlatformDisplayName`. -/
def platformDisplayName (platform : GoString) : GoString :=
  if platform = lit "darwin" then lit "MacOS"
  else if platform = lit "win32" then lit "Windows"
  else platform

@[ext]
structure Device where
  platform : GoString := []
  uuid : GoString := []
  manufacturer : GoString := []
  model : GoString := []
  osVersion : GoString := []
  hostName : GoString := []
  appVersion : GoString := []
  deriving DecidableEq

namespace Device

def description (d : Device) : GoString :=
  let desc :=
    if d.hostName ≠ [] then d.hostName
    else if d.model ≠ [] then (iosDevice d.model).getD d.model
    else platformDisplayName d.platform ++ lit " Device"
  if d.platform ≠ [] ∧ d.osVersion ≠ [] then
    desc ++ lit " (" ++ platformDisplayName d.platform ++ lit " " ++ d.osVersion ++ lit ")"
  else desc

/-- `Device.UpdateFromRequest`: only the dynamic fields, and only those that
the request carries. -/
def updateFromRequest (d : Device) (r : Request) : Device :=
  let appVersion :=
    if r.header .deviceAppVersion = [] then r.header .clientAppVersion
    else r.header .deviceAppVersion
  { d with
    osVersion := if r.header .deviceOSVersion ≠ [] then r.header .deviceOSVersion else d.osVersion
    hostName := if r.header .deviceHostname ≠ [] then r.header .deviceHostname else d.hostName
    appVersion := if appVersion ≠ [] then appVersion else d.appVersion }

@[simp] theorem updateFromRequest_uuid (d : Device) (r : Request) :
    (d.updateFromRequest r).uuid = d.uuid := rfl

end Device

/-- `DeviceFromRequest`: the platform decides whether there is a device at all. -/
def deviceFromRequest (r : Request) : Option Device :=
  let platform :=
    if r.header .devicePlatform = [] then r.header .clientPlatform else r.header .devicePlatform
  if platform = [] then none
  else
    let device : Device :=
      { platform
        uuid := r.header .deviceUUID
        model := r.header .deviceModel
        manufacturer := r.header .deviceManufacturer }
    some (device.updateFromRequest r)

end PadlockCloud
