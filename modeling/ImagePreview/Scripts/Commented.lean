import ImagePreview.Scripts.Library
import ImagePreview.Text.Basic

/-!
The script libraries with their comments, as people read them.
-/
namespace ImagePreview.Library

def lines (ls : List String) : Text := ['\n'].intercalate (ls.map String.toList)

/-- The library as served for debugging. -/
def commented : Library → Text
  | .previews => lines [
      "/*",
      " * Holds the low resolution previews registered by the page and writes them",
      " * into every image still waiting for its high resolution source.",
      " */",
      "var pagespeed = window['pagespeed'] || \x7b\x7d;",
      "",
      "/**",
      " * @constructor",
      " */",
      "pagespeed.DelayImagesInline = function() \x7b",
      "  /* Maps high resolution urls to preview data urls. */",
      "  this.inlineMap_ = \x7b\x7d;",
      "\x7d;",
      "",
      "pagespeed.DelayImagesInline.prototype.addLowResImages = function(url, lowResData) \x7b",
      "  this.inlineMap_[url] = lowResData;",
      "\x7d;",
      "pagespeed.DelayImagesInline.prototype['addLowResImages'] =",
      "    pagespeed.DelayImagesInline.prototype.addLowResImages;",
      "",
      "pagespeed.DelayImagesInline.prototype.replaceWithLowRes = function() \x7b",
      "  var elements = document.querySelectorAll('[pagespeed_high_res_src]');",
      "  for (var i = 0; i < elements.length; ++i) \x7b",
      "    var src = elements[i].getAttribute('pagespeed_high_res_src');",
      "    /* Only images whose preview was registered get one. */",
      "    if (src && this.inlineMap_[src]) \x7b",
      "      elements[i].setAttribute('src', this.inlineMap_[src]);",
      "    \x7d",
      "  \x7d",
      "  this.inlineMap_ = \x7b\x7d;",
      "\x7d;",
      "pagespeed.DelayImagesInline.prototype['replaceWithLowRes'] =",
      "    pagespeed.DelayImagesInline.prototype.replaceWithLowRes;",
      "",
      "pagespeed.delayImagesInlineInit = function() \x7b",
      "  var temp = new pagespeed.DelayImagesInline();",
      "  pagespeed['delayImagesInline'] = temp;",
      "\x7d;",
      "pagespeed['delayImagesInlineInit'] = pagespeed.delayImagesInlineInit;",
      "window['pagespeed'] = pagespeed;"]
  | .fullImages => lines [
      "/*",
      " * Swaps every preview for its high resolution original, either right after",
      " * the page loads or, for lazily loaded high resolution images, once the",
      " * image scrolls into view.",
      " */",
      "var pagespeed = window['pagespeed'] || \x7b\x7d;",
      "",
      "/**",
      " * @constructor",
      " */",
      "pagespeed.DelayImages = function() \x7b",
      "  this.highResAttribute_ = 'pagespeed_high_res_src';",
      "\x7d;",
      "",
      "/* Loads one image from its high resolution source. */",
      "pagespeed.DelayImages.prototype.loadHighRes_ = function(element) \x7b",
      "  var src = element.getAttribute(this.highResAttribute_);",
      "  if (src) \x7b",
      "    element.setAttribute('src', src);",
      "    element.removeAttribute(this.highResAttribute_);",
      "  \x7d",
      "\x7d;",
      "",
      "pagespeed.DelayImages.prototype.replaceWithHighRes = function() \x7b",
      "  var elements = document.querySelectorAll('[' + this.highResAttribute_ + ']');",
      "  for (var i = 0; i < elements.length; ++i) \x7b",
      "    this.loadHighRes_(elements[i]);",
      "  \x7d",
      "\x7d;",
      "pagespeed.DelayImages.prototype['replaceWithHighRes'] =",
      "    pagespeed.DelayImages.prototype.replaceWithHighRes;",
      "",
      "pagespeed.DelayImages.prototype.isVisible_ = function(element) \x7b",
      "  var rect = element.getBoundingClientRect();",
      "  var height = window.innerHeight || document.documentElement.clientHeight;",
      "  return rect.top <= height && rect.bottom >= 0;",
      "\x7d;",
      "",
      "pagespeed.DelayImages.prototype.loadVisible_ = function() \x7b",
      "  var elements = document.querySelectorAll('[' + this.highResAttribute_ + ']');",
      "  for (var i = 0; i < elements.length; ++i) \x7b",
      "    if (this.isVisible_(elements[i])) \x7b",
      "      this.loadHighRes_(elements[i]);",
      "    \x7d",
      "  \x7d",
      "\x7d;",
      "",
      "pagespeed.DelayImages.prototype.registerLazyLoadHighRes = function() \x7b",
      "  var me = this;",
      "  var handler = function() \x7b me.loadVisible_(); \x7d;",
      "  window.addEventListener('scroll', handler, false);",
      "  window.addEventListener('resize', handler, false);",
      "  handler();",
      "\x7d;",
      "pagespeed.DelayImages.prototype['registerLazyLoadHighRes'] =",
      "    pagespeed.DelayImages.prototype.registerLazyLoadHighRes;",
      "",
      "pagespeed.delayImagesInit = function() \x7b",
      "  var temp = new pagespeed.DelayImages();",
      "  pagespeed['delayImages'] = temp;",
      "\x7d;",
      "pagespeed['delayImagesInit'] = pagespeed.delayImagesInit;",
      "window['pagespeed'] = pagespeed;"]
  | .lazyImages => lines [
      "/*",
      " * Loads images marked with pagespeed_lazy_src once they become visible.",
      " */",
      "var pagespeed = window['pagespeed'] || \x7b\x7d;",
      "",
      "/**",
      " * @constructor",
      " */",
      "pagespeed.LazyloadImages = function(blankImageSrc) \x7b",
      "  this.blankImageSrc_ = blankImageSrc;",
      "\x7d;",
      "",
      "pagespeed.LazyloadImages.prototype.isVisible_ = function(element) \x7b",
      "  var rect = element.getBoundingClientRect();",
      "  var height = window.innerHeight || document.documentElement.clientHeight;",
      "  return rect.top <= height && rect.bottom >= 0;",
      "\x7d;",
      "",
      "pagespeed.LazyloadImages.prototype.loadIfVisible = function(element) \x7b",
      "  var src = element.getAttribute('pagespeed_lazy_src');",
      "  if (src && this.isVisible_(element)) \x7b",
      "    element.onload = null;",
      "    element.removeAttribute('pagespeed_lazy_src');",
      "    element.setAttribute('src', src);",
      "  \x7d",
      "\x7d;",
      "pagespeed.LazyloadImages.prototype['loadIfVisible'] =",
      "    pagespeed.LazyloadImages.prototype.loadIfVisible;",
      "",
      "/* Makes scripts reading img.src see the lazy source instead of the blank. */",
      "pagespeed.LazyloadImages.prototype.overrideAttributeFunctions = function() \x7b",
      "  var me = this;",
      "  var getAttribute = Element.prototype.getAttribute;",
      "  Element.prototype.getAttribute = function(name) \x7b",
      "    if (name.toLowerCase() == 'src' && this.getAttribute('pagespeed_lazy_src')) \x7b",
      "      return getAttribute.call(this, 'pagespeed_lazy_src');",
      "    \x7d",
      "    return getAttribute.call(this, name);",
      "  \x7d;",
      "  me.loadAll_ = true;",
      "\x7d;",
      "pagespeed.LazyloadImages.prototype['overrideAttributeFunctions'] =",
      "    pagespeed.LazyloadImages.prototype.overrideAttributeFunctions;",
      "",
      "pagespeed.lazyLoadInit = function(deferJs, blankImageSrc) \x7b",
      "  var temp = new pagespeed.LazyloadImages(blankImageSrc);",
      "  pagespeed['lazyLoadImages'] = temp;",
      "  var handler = function() \x7b",
      "    var elements = document.querySelectorAll('[pagespeed_lazy_src]');",
      "    for (var i = 0; i < elements.length; ++i) \x7b",
      "      temp.loadIfVisible(elements[i]);",
      "    \x7d",
      "  \x7d;",
      "  window.addEventListener('scroll', handler, false);",
      "  /* With deferred JavaScript the load event fires after deferred scripts. */",
      "  window.addEventListener(deferJs ? 'load' : 'DOMContentLoaded', handler, false);",
      "\x7d;",
      "pagespeed['lazyLoadInit'] = pagespeed.lazyLoadInit;",
      "window['pagespeed'] = pagespeed;"]
  | .deferral => lines [
      "/*",
      " * Marks the page as running with deferred JavaScript so that scripts moved",
      " * to the end of the document know they execute late.",
      " */",
      "var pagespeed = window['pagespeed'] || \x7b\x7d;",
      "pagespeed['deferJsEnabled'] = true;",
      "window['pagespeed'] = pagespeed;"]

end ImagePreview.Library
